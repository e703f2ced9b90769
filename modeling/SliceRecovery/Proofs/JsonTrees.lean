import SliceRecovery.Json.Decode
import SliceRecovery.Proofs.JsonTokens

/-!
# SliceRecovery.Proofs.JsonTrees -- a written value is read back as its own tree

The reader takes the tokens of a value back to the tree of the value, as long as no more containers
are open at once than may be (`document_chars`). Its fuel is counted in tokens: a value is read with
at least as much fuel as it has tokens, and what stands in a container has fewer. The tree of a
value has no faults, whether its values are wanted or passed over.
-/

namespace SliceRecovery.Json.Reading

open Token (openBracket closeBracket openBrace closeBrace comma colon)

variable {ending : Ending}

/-- No value begins with the bracket that closes an array. -/
theorem exists_tokens_cons (v : Json) : ∃ t ts, tokens v = t :: ts ∧ t ≠ closeBracket := by
  cases v with
  | null => exact ⟨_, _, rfl, nofun⟩
  | bool b => exact ⟨_, _, rfl, nofun⟩
  | int i => exact ⟨_, _, rfl, nofun⟩
  | str s => exact ⟨_, _, rfl, nofun⟩
  | arr items => cases items <;> exact ⟨_, _, rfl, nofun⟩
  | obj members =>
    cases members with
    | nil => exact ⟨_, _, rfl, nofun⟩
    | cons m ms => exact ⟨_, _, rfl, nofun⟩

mutual

/-- A value is read back, with as much fuel as it has tokens, if its containers have room. -/
theorem readValue_tokens : (v : Json) → (fuel room : Nat) → (rest : List Token) →
    (tokens v).length ≤ fuel → (ofJson v).depth ≤ room →
    readValue ending fuel room (tokens v ++ rest) = (ofJson v, some rest)
  | .null, _ + 1, _, _, _, _ => rfl
  | .bool _, _ + 1, _, _, _, _ => rfl
  | .int _, _ + 1, _, _, _, _ => rfl
  | .str _, _ + 1, _, _, _, _ => rfl
  | .arr [], _ + 1, _ + 1, _, _, _ => rfl
  | .arr (v :: vs), fuel + 1, room + 1, rest, hfuel, hroom => by
    simp only [tokens, List.length_cons, List.length_append, List.length_nil] at hfuel
    simp only [ofJson, itemsOfJson, depth, itemsDepth] at hroom
    obtain ⟨t, ts, hts, hne⟩ := exists_tokens_cons v
    have hitems := readItems_tokens v vs fuel room [] rest (by omega) (by omega) (by omega)
    rw [hts] at hitems
    rw [tokens, List.cons_append, readValue, hts]
    simp only [List.append_assoc, List.cons_append, List.nil_append] at hitems ⊢
    rw [hitems]
    · rfl
    · -- what follows the bracket is a value
      intro ts' h
      rw [hts] at h
      exact hne (List.cons.inj h).1
  | .obj [], _ + 1, _ + 1, _, _, _ => rfl
  | .obj ((k, v) :: ms), fuel + 1, room + 1, rest, hfuel, hroom => by
    simp only [tokens, List.length_cons, List.length_append, List.length_nil] at hfuel
    simp only [ofJson, membersOfJson, depth, membersDepth] at hroom
    have hmembers := readMembers_tokens k v ms fuel room [] rest (by omega) (by omega) (by omega)
    rw [tokens]
    simp only [List.append_assoc, List.cons_append, List.nil_append] at hmembers ⊢
    exact hmembers

theorem readItems_tokens : (v : Json) → (vs : List Json) → (fuel room : Nat) →
    (done : List Reading) → (rest : List Token) →
    (tokens v).length + (itemTokens vs).length < fuel → (ofJson v).depth ≤ room →
    itemsDepth (itemsOfJson vs) ≤ room →
    readItems ending fuel room done (tokens v ++ (itemTokens vs ++ closeBracket :: rest)) =
      (arr (done.reverse ++ itemsOfJson (v :: vs)) none, some rest)
  | v, [], fuel + 1, room, done, rest, hfuel, hv, _ => by
    rw [readItems, readValue_tokens v fuel room _ (by omega) hv]
    simp [itemTokens, itemsOfJson]
  | v, w :: vs, fuel + 1, room, done, rest, hfuel, hv, hvs => by
    simp only [itemTokens, List.length_cons, List.length_append] at hfuel
    simp only [itemsOfJson, itemsDepth] at hvs
    rw [readItems, readValue_tokens v fuel room _ (by omega) hv]
    have hitems := readItems_tokens w vs fuel room (ofJson v :: done) rest (by omega) (by omega)
      (by omega)
    simp only [itemTokens, List.append_assoc, List.cons_append]
    rw [hitems]
    simp [itemsOfJson]

theorem readMembers_tokens : (k : String) → (v : Json) → (ms : List (String × Json)) →
    (fuel room : Nat) → (done : List (Name × Reading)) → (rest : List Token) →
    (tokens v).length + (memberTokens ms).length < fuel → (ofJson v).depth ≤ room →
    membersDepth (membersOfJson ms) ≤ room →
    readMembers ending fuel room done
        (.str (some k) :: colon :: (tokens v ++ (memberTokens ms ++ closeBrace :: rest))) =
      (obj (done.reverse ++ membersOfJson ((k, v) :: ms)) none, some rest)
  | k, v, [], fuel + 1, room, done, rest, hfuel, hv, _ => by
    rw [readMembers]
    rw [readValue_tokens v fuel room _ (by omega) hv]
    simp [memberTokens, membersOfJson]
  | k, v, (l, w) :: ms, fuel + 1, room, done, rest, hfuel, hv, hms => by
    simp only [memberTokens, List.length_cons, List.length_append] at hfuel
    simp only [membersOfJson, membersDepth] at hms
    rw [readMembers]
    rw [readValue_tokens v fuel room _ (by omega) hv]
    have hmembers := readMembers_tokens l w ms fuel room ((.text k, ofJson v) :: done) rest
      (by omega) (by omega) (by omega)
    simp only [memberTokens, List.append_assoc, List.cons_append]
    rw [hmembers]
    simp [membersOfJson]

end

/-- **The text of a value is read as the tree of the value**, in either layout, as long as its
numbers have 64 bits and no more than 127 containers are open at once. -/
theorem document_chars (l : Layout) {v : Json} (hv : v.Fits)
    (hdepth : (ofJson v).depth ≤ depthLimit) :
    document (String.ofList (chars l v)) = ⟨ofJson v, none⟩ := by
  unfold document
  rw [String.toList_ofList, Token.scan_chars l hv]
  have hread : readValue .finished (2 * (tokens v).length + 2) depthLimit (tokens v ++ []) =
      (ofJson v, some []) := readValue_tokens v _ _ _ (by omega) hdepth
  rw [List.append_nil] at hread
  dsimp only
  rw [hread]
  rfl

/-! ## Trees without faults -/

mutual

theorem fault?_ofJson : (v : Json) → fault? (ofJson v) = none
  | .null => rfl
  | .bool _ => rfl
  | .int _ => rfl
  | .str _ => rfl
  | .arr items => by rw [ofJson, fault?, itemsFault?_ofJson items]; rfl
  | .obj members => by rw [ofJson, fault?, membersFault?_ofJson members]; rfl

theorem itemsFault?_ofJson : (vs : List Json) → itemsFault? (itemsOfJson vs) = none
  | [] => rfl
  | v :: vs => by rw [itemsOfJson, itemsFault?, fault?_ofJson v, itemsFault?_ofJson vs]; rfl

theorem membersFault?_ofJson : (ms : List (String × Json)) → membersFault? (membersOfJson ms) = none
  | [] => rfl
  | (_, v) :: ms => by
    rw [membersOfJson, membersFault?, fault?_ofJson v, membersFault?_ofJson ms]; rfl

end

end SliceRecovery.Json.Reading

namespace SliceRecovery.Json.Decode

/-- What a decoder makes of the tree of a value it makes of the text of the value. -/
theorem document_eq {α : Type} {d : Decoder α} (l : Layout) {v : Json} (hv : v.Fits)
    (hdepth : (Reading.ofJson v).depth ≤ Reading.depthLimit) :
    document d (String.ofList (chars l v)) = d (.ofJson v) := by
  unfold document
  rw [Reading.document_chars l hv hdepth]
  cases h : d (.ofJson v) with
  | error f => simp [h, bind, Except.bind]
  | ok a => simp [h, bind, Except.bind, pure, Except.pure]

end SliceRecovery.Json.Decode
