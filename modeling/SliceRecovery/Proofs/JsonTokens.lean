import Mathlib.Data.List.TakeDrop
import SliceRecovery.Json.Token

/-!
# SliceRecovery.Proofs.JsonTokens -- a written value is split into its own tokens

`tokens` says what a value is as a sequence of tokens, and `scan_chars` that this is what its text
is split into, in either layout. The writer collects its characters last first; `written` is the
same text in reading order (`emit_eq`).

A text is composed of parts, and so is the proof: `Scans w ts` says that the characters `w` are
taken as the tokens `ts`, whatever follows them. Only a number can go on in what follows, and what
follows a value begins with a bracket, a comma or a blank; `Ends` is that condition.
-/

namespace SliceRecovery.Json

open Text (Hex.lower Hex.pad)

/-! ## Tokens and characters of a value -/

/- Every integer in a value has 64 bits, signed or unsigned. -/
mutual

def Fits : Json → Prop
  | int i => -(Word.half : Int) ≤ i ∧ i < Word.span
  | arr items => ItemsFit items
  | obj members => MembersFit members
  | _ => True

def ItemsFit : List Json → Prop
  | [] => True
  | v :: vs => v.Fits ∧ ItemsFit vs

def MembersFit : List (String × Json) → Prop
  | [] => True
  | (_, v) :: ms => v.Fits ∧ MembersFit ms

end

/- The tokens of a value, and of the items or members after the first. -/
mutual

def tokens : Json → List Token
  | null => [.null]
  | bool b => [.bool b]
  | int i => [.int i]
  | str s => [.str (some s)]
  | arr [] => [.openBracket, .closeBracket]
  | arr (v :: vs) => .openBracket :: (tokens v ++ (itemTokens vs ++ [.closeBracket]))
  | obj [] => [.openBrace, .closeBrace]
  | obj ((k, v) :: ms) =>
    .openBrace :: .str (some k) :: .colon :: (tokens v ++ (memberTokens ms ++ [.closeBrace]))

def itemTokens : List Json → List Token
  | [] => []
  | v :: vs => .comma :: (tokens v ++ itemTokens vs)

def memberTokens : List (String × Json) → List Token
  | [] => []
  | (k, v) :: ms => .comma :: .str (some k) :: .colon :: (tokens v ++ memberTokens ms)

end

/- The characters of a value in reading order, and of the items or members after the first. -/
mutual

def written (l : Layout) (level : Nat) : Json → List Char
  | null => "null".toList
  | bool true => "true".toList
  | bool false => "false".toList
  | int i => (toString i).toList
  | str s => quote s
  | arr [] => ['[', ']']
  | arr (v :: vs) =>
    '[' :: (l.lineBreak (level + 1) ++ (written l (level + 1) v ++
      (writtenItems l (level + 1) vs ++ (l.lineBreak level ++ [']']))))
  | obj [] => ['\x7b', '\x7d']
  | obj ((k, v) :: ms) =>
    '\x7b' :: (l.lineBreak (level + 1) ++ (quote k ++ (l.colon ++ (written l (level + 1) v ++
      (writtenMembers l (level + 1) ms ++ (l.lineBreak level ++ ['\x7d']))))))

def writtenItems (l : Layout) (level : Nat) : List Json → List Char
  | [] => []
  | v :: vs => ',' :: (l.lineBreak level ++ (written l level v ++ writtenItems l level vs))

def writtenMembers (l : Layout) (level : Nat) : List (String × Json) → List Char
  | [] => []
  | (k, v) :: ms =>
    ',' :: (l.lineBreak level ++ (quote k ++ (l.colon ++ (written l level v ++
      writtenMembers l level ms))))

end

variable {l : Layout} {level : Nat}

mutual

theorem emit_eq : (level : Nat) → (v : Json) → (done : List Char) →
    emit l level v done = (written l level v).reverse ++ done
  | _, null, _ => by simp [emit, written]
  | _, bool true, _ => by simp [emit, written]
  | _, bool false, _ => by simp [emit, written]
  | _, int _, _ => by simp [emit, written]
  | _, str _, _ => by simp [emit, written]
  | _, arr [], _ => by simp [emit, written]
  | level, arr (v :: vs), done => by
    simp [emit, written, emit_eq (level + 1) v, emitItems_eq (level + 1) vs]
  | _, obj [], _ => by simp [emit, written]
  | level, obj ((k, v) :: ms), done => by
    simp [emit, written, emit_eq (level + 1) v, emitMembers_eq (level + 1) ms]

theorem emitItems_eq : (level : Nat) → (vs : List Json) → (done : List Char) →
    emitItems l level vs done = (writtenItems l level vs).reverse ++ done
  | _, [], _ => by simp [emitItems, writtenItems]
  | level, v :: vs, done => by
    simp [emitItems, writtenItems, emit_eq level v, emitItems_eq level vs]

theorem emitMembers_eq : (level : Nat) → (ms : List (String × Json)) → (done : List Char) →
    emitMembers l level ms done = (writtenMembers l level ms).reverse ++ done
  | _, [], _ => by simp [emitMembers, writtenMembers]
  | level, (k, v) :: ms, done => by
    simp [emitMembers, writtenMembers, emit_eq level v, emitMembers_eq level ms]

end

theorem chars_eq (l : Layout) (v : Json) : chars l v = written l 0 v := by
  unfold chars
  rw [emit_eq, List.append_nil, List.reverse_reverse]

namespace Token

/-! ## Strings -/

/-- The four digits of a control character are read as its number. -/
theorem codeUnit_pad {n : Nat} (hn : n < 0x20) (cs : List Char) :
    codeUnit (Hex.pad 4 (Hex.lower n) ++ cs) = .ok (n, cs) := by
  have hdigits : ∀ n < 0x20, Hex.pad 4 (Hex.lower n) =
      ['0', '0', Nat.digitChar (n / 16), Nat.digitChar (n % 16)] := by decide
  have hsizes : ∀ n < 0x20,
      ['0', '0', Nat.digitChar (n / 16), Nat.digitChar (n % 16)].foldl
        (fun n c => n + c.utf8Size) 0 = 4 := by decide
  have hvalue : ∀ n < 0x20,
      hex4? '0' '0' (Nat.digitChar (n / 16)) (Nat.digitChar (n % 16)) = some n := by decide
  rw [hdigits n hn]
  refine (if_neg ?_).trans ?_
  · rw [show List.take 4 (_ :: _ :: _ :: _ :: [] ++ cs) =
      ['0', '0', Nat.digitChar (n / 16), Nat.digitChar (n % 16)] from rfl, hsizes n hn]
    decide
  · dsimp only [List.cons_append, List.nil_append]
    rw [hvalue n hn]

/-- Each character of a string is read back from its escape. -/
theorem readString_escape (fuel : Nat) (read : List Char) (c : Char) (cs : List Char) :
    readString (fuel + 1) ⟨read, none, false⟩ (escape c ++ cs) =
      readString fuel ⟨c :: read, none, false⟩ cs := by
  by_cases hshort : c ∈ ['"', '\\', '\x08', '\x0c', '\n', '\r', '\t']
  · -- the escapes of one letter
    simp only [List.mem_cons, List.not_mem_nil, or_false] at hshort
    rcases hshort with rfl | rfl | rfl | rfl | rfl | rfl | rfl <;> rfl
  · have hescape : escape c =
        if c.toNat < 0x20 then ['\\', 'u'] ++ Hex.pad 4 (Hex.lower c.toNat) else [c] := by
      simp only [List.mem_cons, List.not_mem_nil, or_false, not_or] at hshort
      obtain ⟨h1, h2, h3, h4, h5, h6, h7⟩ := hshort
      unfold escape
      rw [if_neg h1, if_neg h2, if_neg h3, if_neg h4, if_neg h5, if_neg h6, if_neg h7]
    rw [hescape]
    split
    · -- a control character is written as its number, which is no half of a pair
      rename_i hc
      rw [List.append_assoc]
      dsimp only [List.cons_append, List.nil_append]
      rw [readString, codeUnit_pad hc]
      dsimp only
      have hn : ¬ 0xD800 ≤ c.toNat := by omega
      have hm : ¬ 0xDC00 ≤ c.toNat := by omega
      unfold Draft.pushUnit
      rw [if_neg fun h => hn h.1, if_neg fun h => hm h.1, Char.ofNat_toNat]
      rfl
    · -- any other character stands for itself
      rename_i hc
      have hquote : c ≠ '"' := fun h => hshort (by simp [h])
      have hslash : c ≠ '\\' := fun h => hshort (by simp [h])
      dsimp only [List.cons_append, List.nil_append]
      rw [readString, if_neg hc]
      · rfl
      · exact hquote
      · exact fun h => absurd h hslash
      · exact fun _ h => absurd h hslash
      · exact fun _ _ h => absurd h hslash

theorem length_escape_pos (c : Char) : 0 < (escape c).length := by
  unfold escape
  repeat' split
  all_goals simp

theorem length_le_flatMap_escape (cs : List Char) : cs.length ≤ (cs.flatMap escape).length := by
  induction cs with
  | nil => exact Nat.le_refl 0
  | cons c cs ih =>
    have hc := length_escape_pos c
    rw [List.flatMap_cons, List.length_append, List.length_cons]
    omega

theorem readString_quote (s : List Char) (fuel : Nat) (read rest : List Char)
    (hfuel : s.length < fuel) :
    readString fuel ⟨read, none, false⟩ (s.flatMap escape ++ '"' :: rest) =
      .ok (str (some (String.ofList (read.reverse ++ s))), rest) := by
  induction s generalizing fuel read with
  | nil =>
    obtain ⟨fuel, rfl⟩ : ∃ n, fuel = n + 1 := ⟨fuel - 1, by simp at hfuel; omega⟩
    rw [List.append_nil]
    rfl
  | cons c s ih =>
    obtain ⟨fuel, rfl⟩ : ∃ n, fuel = n + 1 := ⟨fuel - 1, by simp at hfuel; omega⟩
    rw [List.flatMap_cons, List.append_assoc, readString_escape,
      ih fuel (c :: read) (Nat.lt_of_succ_lt_succ hfuel)]
    simp

/-! ## Numbers -/

/-- Nothing follows that would go on a number. -/
def Ends (rest : List Char) : Prop :=
  ∀ c ∈ rest.head?, c.isDigit = false ∧ c ≠ '.' ∧ c ≠ 'e' ∧ c ≠ 'E'

/-- No number of two digits starts with zero. -/
theorem toDigits_ne_zero_cons (n : Nat) (d : Char) (ds : List Char) :
    Nat.toDigits 10 n ≠ '0' :: d :: ds := by
  induction n using Nat.strongRecOn generalizing d ds with
  | ind n ih =>
    intro h
    by_cases hn : n < 10
    · rw [Nat.toDigits_of_lt_base hn] at h
      exact absurd (List.cons.inj h).2 (List.cons_ne_nil _ _).symm
    · rw [Nat.toDigits_of_base_le (by omega) (by omega)] at h
      cases hq : Nat.toDigits 10 (n / 10) with
      | nil => exact Nat.toDigits_ne_nil hq
      | cons e es =>
        rw [hq] at h
        obtain ⟨rfl, h⟩ := List.cons.inj h
        cases es with
        | nil =>
          -- the digits of zero are not those of a number above it
          have hzero := congrArg (Nat.ofDigitChars 10 · 0) hq
          simp only [Nat.ofDigitChars_ten_toDigits] at hzero
          rw [show Nat.ofDigitChars 10 ['0'] 0 = 0 from rfl] at hzero
          omega
        | cons f fs => exact ih (n / 10) (by omega) f fs hq

theorem digits1_toDigits (n : Nat) {rest : List Char} (hrest : Ends rest) :
    digits1 (Nat.toDigits 10 n ++ rest) = .ok (Nat.toDigits 10 n, rest) := by
  have hdigits : ∀ c ∈ Nat.toDigits 10 n, c.isDigit = true := fun c hc =>
    Nat.isDigit_of_mem_toDigits (by decide) (by decide) hc
  have hstop : rest.takeWhile Char.isDigit = [] ∧ rest.dropWhile Char.isDigit = rest := by
    cases rest with
    | nil => exact ⟨rfl, rfl⟩
    | cons c cs =>
      have hc := (hrest c rfl).1
      simp [hc]
  unfold digits1
  rw [List.span_eq_takeWhile_dropWhile, List.takeWhile_append_of_pos hdigits,
    List.dropWhile_append_of_pos hdigits, hstop.1, hstop.2, List.append_nil]
  split
  · exact absurd (congrArg Prod.fst ‹_ = ([], [])›) Nat.toDigits_ne_nil
  · exact absurd (congrArg Prod.fst ‹_ = ([], _ :: _)›) Nat.toDigits_ne_nil
  · cases ‹_ = _›
    rfl

theorem readNumber_toDigits (negative : Bool) (n : Nat) {rest : List Char} (hrest : Ends rest) :
    readNumber negative (Nat.toDigits 10 n ++ rest) =
      .ok (ofNumber negative (Nat.toDigits 10 n) [] none, rest) := by
  have hwhole : readWhole (Nat.toDigits 10 n ++ rest) = .ok (Nat.toDigits 10 n, rest) := by
    unfold readWhole
    rw [digits1_toDigits n hrest]
    split
    · rename_i h
      have hds := congrArg Prod.fst (Except.ok.inj h)
      exact absurd hds (toDigits_ne_zero_cons n _ _)
    · rfl
  have hfraction : readFraction rest = .ok ([], rest) := by
    unfold readFraction
    split
    · exact absurd rfl (hrest '.' rfl).2.1
    · rfl
  have hexponent : readExponent rest = .ok (none, rest) := by
    unfold readExponent
    split
    · rename_i c cs
      have hc := (hrest c rfl).2.2
      rw [if_neg fun h => h.elim hc.1 hc.2]
    · rfl
  unfold readNumber
  rw [hwhole]
  dsimp only [bind, Except.bind]
  rw [hfraction]
  dsimp only
  rw [hexponent]
  rfl

theorem natOfDigits_toDigits (n : Nat) : natOfDigits (Nat.toDigits 10 n) = n :=
  Nat.ofDigitChars_ten_toDigits

/-! ## Parts of a text -/

/-- The characters `w` are taken as the tokens `ts` in front of any text of which `p` holds. -/
def Scans (p : List Char → Prop) (w : List Char) (ts : List Token) : Prop :=
  ∀ (fuel : Nat) (done : List Token) (rest : List Char), p rest → (w ++ rest).length < fuel →
    ∃ left, rest.length < left ∧
      scanFrom fuel done (w ++ rest) = scanFrom left (ts.reverse ++ done) rest

/-- Any text at all. -/
def Any : List Char → Prop := fun _ => True

variable {c : Char} {w x : List Char} {t : Token} {ts us : List Token} {p q : List Char → Prop}

theorem Scans.nil : Scans p [] [] := fun fuel _ _ _ hfuel => ⟨fuel, hfuel, rfl⟩

theorem Scans.append (hw : Scans p w ts) (hx : Scans q x us)
    (hnext : ∀ rest, q rest → p (x ++ rest)) : Scans q (w ++ x) (ts ++ us) := by
  intro fuel done rest hrest hfuel
  rw [List.append_assoc] at hfuel ⊢
  obtain ⟨left, hleft, hscan⟩ := hw fuel done (x ++ rest) (hnext rest hrest) hfuel
  obtain ⟨last, hlast, hscan'⟩ := hx left (ts.reverse ++ done) rest hrest hleft
  refine ⟨last, hlast, ?_⟩
  rw [hscan, hscan', List.reverse_append, List.append_assoc]

/-- A part after one that is read the same in front of anything. -/
theorem Scans.before (hw : Scans Any w ts) (hx : Scans q x us) : Scans q (w ++ x) (ts ++ us) :=
  hw.append hx fun _ _ => trivial

theorem Scans.of_any (hw : Scans Any w ts) : Scans q w ts :=
  fun fuel done rest _ hfuel => hw fuel done rest trivial hfuel

/-- A token that is read from its first character on. -/
theorem Scans.token (hblank : isBlank c = false)
    (hread : ∀ fuel rest, p rest → (w ++ rest).length < fuel →
      readToken fuel c (w ++ rest) = .ok (t, rest)) : Scans p (c :: w) [t] := by
  intro fuel done rest hrest hfuel
  obtain ⟨fuel, rfl⟩ : ∃ n, fuel = n + 1 := ⟨fuel - 1, by omega⟩
  have hlength : (w ++ rest).length < fuel := Nat.lt_of_succ_lt_succ hfuel
  refine ⟨fuel, by rw [List.length_append] at hlength; omega, ?_⟩
  rw [List.cons_append, scanFrom, hblank, hread fuel rest hrest hlength]
  rfl

/-- A mark is a token of one character. -/
theorem Scans.mark (hblank : isBlank c = false)
    (hread : ∀ fuel cs, readToken fuel c cs = .ok (t, cs)) : Scans Any [c] [t] :=
  .token hblank fun fuel rest _ _ => hread fuel rest

/-- Blanks give no tokens. -/
theorem Scans.blanks (hw : ∀ c ∈ w, isBlank c = true) : Scans Any w [] := by
  induction w with
  | nil => exact .nil
  | cons c w ih =>
    intro fuel done rest hrest hfuel
    obtain ⟨fuel, rfl⟩ : ∃ n, fuel = n + 1 := ⟨fuel - 1, by omega⟩
    have hlength : (w ++ rest).length < fuel := Nat.lt_of_succ_lt_succ hfuel
    rw [List.cons_append, scanFrom, if_pos (hw c List.mem_cons_self)]
    exact ih (fun c hc => hw c (List.mem_cons_of_mem _ hc)) fuel done rest hrest hlength

/-! ## One token -/

theorem scans_quote (s : String) : Scans Any (quote s) [str (some s)] := by
  rw [show quote s = '"' :: (s.toList.flatMap escape ++ ['"']) from rfl]
  refine .token (by decide) fun fuel rest _ hfuel => ?_
  have hlength := length_le_flatMap_escape s.toList
  have hfuel : s.toList.length < fuel := by
    simp only [List.length_append] at hfuel
    omega
  rw [List.append_assoc]
  show ((readString fuel ⟨[], none, false⟩ _).mapError _) = _
  rw [show ['"'] ++ rest = '"' :: rest from rfl, readString_quote _ _ _ _ hfuel]
  simp [Except.mapError]

/-- A digit starts a number. -/
theorem readToken_digit (hc : c.isDigit = true) (fuel : Nat) (cs : List Char) :
    readToken fuel c cs = (readNumber false (c :: cs)).mapError .inOther := by
  unfold readToken
  split
  all_goals first
    | exact absurd hc (by decide)
    | rw [if_pos hc]

theorem isBlank_digit (hc : c.isDigit = true) : isBlank c = false := by
  obtain ⟨hlow, -⟩ := Char.isDigit_iff_toNat.mp hc
  have hne : ∀ b : Char, b.toNat < '0'.toNat → (c == b) = false := fun b hb => by
    refine beq_eq_false_iff_ne.mpr ?_
    rintro rfl
    omega
  unfold isBlank
  rw [hne ' ' (by decide), hne '\n' (by decide), hne '\t' (by decide), hne '\r' (by decide)]
  rfl

theorem scans_int {i : Int} (hlow : -(Word.half : Int) ≤ i) (hhigh : i < Word.span) :
    Scans Ends (toString i).toList [int i] := by
  cases i with
  | ofNat n =>
    have hlist : (toString (Int.ofNat n)).toList = Nat.toDigits 10 n := String.toList_ofList
    have hn : n < Word.span := Int.ofNat_lt.mp hhigh
    obtain ⟨c, cs, hcs⟩ := List.exists_cons_of_ne_nil (Nat.toDigits_ne_nil (n := n) (b := 10))
    have hc : c.isDigit = true :=
      Nat.isDigit_of_mem_toDigits (by decide) (by decide) (hcs ▸ List.mem_cons_self)
    rw [hlist, hcs]
    refine .token (isBlank_digit hc) fun fuel rest hrest _ => ?_
    rw [readToken_digit hc, ← List.cons_append, ← hcs, readNumber_toDigits false n hrest]
    unfold ofNumber
    rw [natOfDigits_toDigits]
    simp [hn, Except.mapError]
  | negSucc n =>
    have hlist : (toString (Int.negSucc n)).toList = '-' :: Nat.toDigits 10 (n + 1) := by
      show ("-" ++ (n + 1).repr).toList = _
      rw [String.toList_append]
      exact congrArg ('-' :: ·) String.toList_ofList
    have hn : n + 1 ≤ Word.half := by omega
    rw [hlist]
    refine .token (by decide) fun fuel rest hrest _ => ?_
    show (readNumber true _).mapError Ending.inOther = _
    rw [readNumber_toDigits true (n + 1) hrest]
    unfold ofNumber
    rw [natOfDigits_toDigits]
    show _ = Except.ok (int (-((n + 1 : Nat) : Int)), rest)
    simp [hn, Except.mapError]

theorem scans_lineBreak (l : Layout) (level : Nat) : Scans Any (l.lineBreak level) [] := by
  refine .blanks fun c hc => ?_
  cases l with
  | compact => cases hc
  | indented =>
    rcases List.mem_cons.mp hc with rfl | hc
    · rfl
    · rw [List.eq_of_mem_replicate hc]
      rfl

theorem scans_colon (l : Layout) : Scans Any l.colon [colon] := by
  have hcolon : Scans Any [':'] [colon] := .mark rfl fun _ _ => rfl
  cases l with
  | compact => exact hcolon
  | indented => exact hcolon.before (.blanks fun c hc => by rw [List.mem_singleton.mp hc]; rfl)

/-! ## What follows a value -/

theorem ends_nil : Ends [] := fun _ hc => nomatch hc

theorem ends_cons (hc : c.isDigit = false ∧ c ≠ '.' ∧ c ≠ 'e' ∧ c ≠ 'E') : Ends (c :: w) := by
  intro d hd
  cases hd
  exact hc

theorem ends_lineBreak (l : Layout) (level : Nat) (hw : Ends w) : Ends (l.lineBreak level ++ w) := by
  cases l with
  | compact => exact hw
  | indented => exact ends_cons (by decide)

theorem ends_items (l : Layout) (level : Nat) (vs : List Json) (hw : Ends w) :
    Ends (writtenItems l level vs ++ w) := by
  cases vs with
  | nil => exact hw
  | cons v vs => exact ends_cons (by decide)

theorem ends_members (l : Layout) (level : Nat) (ms : List (String × Json)) (hw : Ends w) :
    Ends (writtenMembers l level ms ++ w) := by
  cases ms with
  | nil => exact hw
  | cons m ms => exact ends_cons (by decide)

/-! ## Values -/

/-- What stands in a container: a first value, others and the mark that closes it. Where a number is
the last value, it ends at the mark. -/
theorem scans_contents (l : Layout) (level : Nat) (hw : Scans Ends w ts) (hx : Scans Ends x us)
    (hends : ∀ rest, Ends rest → Ends (x ++ rest)) (hclose : Scans Any [c] [t])
    (hc : c.isDigit = false ∧ c ≠ '.' ∧ c ≠ 'e' ∧ c ≠ 'E') :
    Scans Any (w ++ (x ++ (l.lineBreak level ++ [c]))) (ts ++ (us ++ [t])) := by
  have hlast : ∀ rest, Ends (l.lineBreak level ++ [c] ++ rest) := by
    intro rest
    rw [List.append_assoc]
    exact ends_lineBreak l level (ends_cons hc)
  have hothers := hx.append ((scans_lineBreak l level).before hclose) fun rest _ => hlast rest
  refine hw.append hothers fun rest _ => ?_
  rw [List.append_assoc]
  exact hends _ (hlast rest)

mutual

theorem scans_written (l : Layout) : (level : Nat) → (v : Json) → v.Fits →
    Scans Ends (written l level v) (tokens v)
  | _, .null, _ => .token rfl fun _ _ _ _ => rfl
  | _, .bool true, _ => .token rfl fun _ _ _ _ => rfl
  | _, .bool false, _ => .token rfl fun _ _ _ _ => rfl
  | _, .int _, hv => by
    rw [written, tokens]
    exact scans_int hv.1 hv.2
  | _, .str s, _ => by
    rw [written, tokens]
    exact (scans_quote s).of_any
  | _, .arr [], _ => by
    rw [written, tokens]
    have hopen : Scans Any ['['] [openBracket] := .mark rfl fun _ _ => rfl
    have hclose : Scans Any [']'] [closeBracket] := .mark rfl fun _ _ => rfl
    exact (hopen.before hclose).of_any
  | level, .arr (v :: vs), hv => by
    rw [written, tokens]
    have hopen : Scans Any ['['] [openBracket] := .mark rfl fun _ _ => rfl
    have hclose : Scans Any [']'] [closeBracket] := .mark rfl fun _ _ => rfl
    have hitems := scans_contents l level (scans_written l (level + 1) v hv.1)
      (scans_items l (level + 1) vs hv.2) (fun _ => ends_items l (level + 1) vs) hclose (by decide)
    exact (hopen.before ((scans_lineBreak l (level + 1)).before hitems)).of_any
  | _, .obj [], _ => by
    rw [written, tokens]
    have hopen : Scans Any ['\x7b'] [openBrace] := .mark rfl fun _ _ => rfl
    have hclose : Scans Any ['\x7d'] [closeBrace] := .mark rfl fun _ _ => rfl
    exact (hopen.before hclose).of_any
  | level, .obj ((k, v) :: ms), hv => by
    rw [written, tokens]
    have hopen : Scans Any ['\x7b'] [openBrace] := .mark rfl fun _ _ => rfl
    have hclose : Scans Any ['\x7d'] [closeBrace] := .mark rfl fun _ _ => rfl
    have hmembers := scans_contents l level (scans_written l (level + 1) v hv.1)
      (scans_members l (level + 1) ms hv.2) (fun _ => ends_members l (level + 1) ms) hclose
      (by decide)
    have hname := (scans_quote k).before ((scans_colon l).before hmembers)
    exact (hopen.before ((scans_lineBreak l (level + 1)).before hname)).of_any

theorem scans_items (l : Layout) : (level : Nat) → (vs : List Json) → ItemsFit vs →
    Scans Ends (writtenItems l level vs) (itemTokens vs)
  | _, [], _ => .nil
  | level, v :: vs, hvs => by
    rw [writtenItems, itemTokens]
    have hcomma : Scans Any [','] [comma] := .mark rfl fun _ _ => rfl
    have hfirst := (scans_written l level v hvs.1).append (scans_items l level vs hvs.2)
      fun rest hrest => ends_items l level vs hrest
    exact hcomma.before ((scans_lineBreak l level).before hfirst)

theorem scans_members (l : Layout) : (level : Nat) → (ms : List (String × Json)) → MembersFit ms →
    Scans Ends (writtenMembers l level ms) (memberTokens ms)
  | _, [], _ => .nil
  | level, (k, v) :: ms, hms => by
    rw [writtenMembers, memberTokens]
    have hcomma : Scans Any [','] [comma] := .mark rfl fun _ _ => rfl
    have hfirst := (scans_written l level v hms.1).append (scans_members l level ms hms.2)
      fun rest hrest => ends_members l level ms hrest
    have hname := (scans_quote k).before ((scans_colon l).before hfirst)
    exact hcomma.before ((scans_lineBreak l level).before hname)

end

/-- **The text of a value is split into its tokens**, in either layout, and into nothing else. -/
theorem scan_chars (l : Layout) {v : Json} (hv : v.Fits) :
    scan (chars l v) = (tokens v, .finished) := by
  unfold scan
  rw [chars_eq]
  obtain ⟨left, hleft, hscan⟩ := scans_written l 0 v hv ((written l 0 v).length + 1) [] [] ends_nil
    (by rw [List.append_nil]; exact Nat.lt_succ_self _)
  rw [List.append_nil, List.append_nil] at hscan
  rw [hscan]
  cases left with
  | zero => cases hleft
  | succ left => rw [scanFrom, List.reverse_reverse]

end Token
end SliceRecovery.Json
