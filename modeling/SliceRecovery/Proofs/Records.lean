import SliceRecovery.Proofs.JsonTrees

/-!
# SliceRecovery.Proofs.Records -- decoders undo writers

Laws for the readings of written values, one for each way of decoding: scalars, lists, maps, names,
records, records spread over another one, and tagged unions. `Undoes` is the relation that they
establish and take for the parts. A record is decoded from its members by name: `Collects` says that
the parts are just the members that were written, and every field of the record is then looked up in
the list of those.

The numbers of all forms are words and bytes, so what is written fits (`fits_obj`, `fits_list`).
-/

namespace SliceRecovery

namespace Entries

variable {κ υ : Type} [LT κ] [DecidableLT κ] [Key κ]

/-- An entry with a key above all others goes to the end. -/
theorem insert_of_forall_lt {k : κ} {v : υ} {es : List (κ × υ)} (h : ∀ e ∈ es, e.1 < k) :
    insert k v es = es ++ [(k, v)] := by
  induction es with
  | nil => rfl
  | cons e es ih =>
    have he : e.1 < k := h e List.mem_cons_self
    have hk : ¬ k < e.1 := fun hlt => Key.irrefl _ (Key.trans he hlt)
    rw [insert, if_neg hk, if_pos he, ih fun f hf => h f (List.mem_cons_of_mem _ hf)]
    rfl

end Entries

namespace OrderedMap

variable {κ υ : Type} [LT κ] [DecidableLT κ] [Key κ]

theorem entries_foldl_insert (es : List (κ × υ)) (m : OrderedMap κ υ)
    (h : Entries.Ascending (m.entries ++ es)) :
    (es.foldl (fun m e => m.insert e.1 e.2) m).entries = m.entries ++ es := by
  induction es generalizing m with
  | nil => exact (List.append_nil _).symm
  | cons e es ih =>
    have hlt : ∀ f ∈ m.entries, f.1 < e.1 := fun f hf =>
      (List.pairwise_append.mp h).2.2 f hf e List.mem_cons_self
    have hinsert : (m.insert e.1 e.2).entries = m.entries ++ [e] :=
      Entries.insert_of_forall_lt hlt
    rw [List.foldl_cons, ih, hinsert, List.append_assoc]
    · rfl
    · rw [hinsert, List.append_assoc]
      exact h

/-- A map is made again from its entries. -/
theorem ofList_entries (m : OrderedMap κ υ) : ofList m.entries = m := by
  have h : (ofList m.entries).entries = m.entries :=
    entries_foldl_insert m.entries empty m.ascending
  apply ext_get?
  intro k
  unfold get?
  rw [h]

end OrderedMap

namespace Json

variable {α β γ : Type}

/-! ## Written values -/

theorem itemsFit_iff {vs : List Json} : ItemsFit vs ↔ ∀ v ∈ vs, v.Fits := by
  induction vs with
  | nil => simp [ItemsFit]
  | cons v vs ih => simp [ItemsFit, ih]

theorem membersFit_iff {ms : List (String × Json)} : MembersFit ms ↔ ∀ m ∈ ms, m.2.Fits := by
  induction ms with
  | nil => simp [MembersFit]
  | cons m ms ih => simp [MembersFit, ih]

@[simp]
theorem fits_word (w : UInt64) : (word w).Fits := by
  have := w.toNat_lt
  exact ⟨by omega, by unfold Word.span; omega⟩

@[simp]
theorem fits_byte (b : UInt8) : (int b.toNat).Fits := by
  have := b.toNat_lt
  exact ⟨by omega, by unfold Word.span; omega⟩

@[simp]
theorem fits_str (s : String) : (str s).Fits := trivial

@[simp]
theorem fits_bool (b : Bool) : (bool b).Fits := trivial

@[simp]
theorem fits_obj {ms : List (String × Json)} : (obj ms).Fits ↔ ∀ m ∈ ms, m.2.Fits := membersFit_iff

@[simp]
theorem fits_list {f : α → Json} {xs : List α} : (list f xs).Fits ↔ ∀ x ∈ xs, (f x).Fits := by
  unfold list
  rw [Fits, itemsFit_iff]
  simp

@[simp]
theorem mem_member? {name : String} {f : α → Json} {o : Option α} {m : String × Json} :
    m ∈ member? name f o ↔ ∃ a, o = some a ∧ m = (name, f a) := by
  cases o <;> simp [member?]

@[simp]
theorem lookup_member? {name k : String} {f : α → Json} {o : Option α} :
    (member? name f o).lookup k = if k = name then o.map f else none := by
  cases o with
  | none => simp [member?]
  | some a =>
    by_cases h : k = name
    · simp [member?, h]
    · simp [member?, h, List.lookup_cons, beq_eq_false_iff_ne.mpr h]

/-- The name of a member that may be missing is its own name or nothing. -/
theorem sublist_member? (name : String) (f : α → Json) (o : Option α) :
    ((member? name f o).map Prod.fst).Sublist [name] := by
  cases o with
  | none => exact List.nil_sublist _
  | some a => exact List.Sublist.refl _

namespace Reading

theorem itemsOfJson_eq (vs : List Json) : itemsOfJson vs = vs.map ofJson := by
  induction vs with
  | nil => rfl
  | cons v vs ih => rw [itemsOfJson, ih, List.map_cons]

theorem membersOfJson_eq (ms : List (String × Json)) :
    membersOfJson ms = ms.map fun m => (.text m.1, ofJson m.2) := by
  induction ms with
  | nil => rfl
  | cons m ms ih => rw [membersOfJson, ih, List.map_cons]

end Reading

namespace Decode

/-- A decoder takes the tree of what is written for a value back to the value. -/
def Undoes (d : Decoder α) (f : α → Json) : Prop := ∀ a, d (.ofJson (f a)) = .ok a

/-! ## Scalars, lists and maps -/

theorem word_undoes : Undoes word Json.word := by
  intro w
  have hw : 0 ≤ (w.toNat : Int) ∧ (w.toNat : Int) < Word.span := by
    have := w.toNat_lt
    exact ⟨by omega, by unfold Word.span; omega⟩
  unfold word Json.word Reading.ofJson
  dsimp only
  rw [if_pos hw, Int.toNat_natCast, UInt64.ofNat_toNat]

theorem byte_undoes : Undoes byte fun b => .int b.toNat := by
  intro b
  have hb : 0 ≤ (b.toNat : Int) ∧ (b.toNat : Int) < 256 := by
    have := b.toNat_lt
    omega
  unfold byte Reading.ofJson
  dsimp only
  rw [if_pos hb, Int.toNat_natCast, UInt8.ofNat_toNat]

theorem text_undoes : Undoes text .str := fun _ => rfl

theorem bool_undoes : Undoes bool .bool := fun _ => rfl

theorem option_of_ne_null {d : Decoder α} {v : Json} (hv : v ≠ .null) :
    option d (.ofJson v) = (d (.ofJson v)).map some := by
  cases v with
  | null => exact absurd rfl hv
  | bool b => rfl
  | int i => rfl
  | str s => rfl
  | arr items => rfl
  | obj members => rfl

theorem name_str {names : List (String × α)} {s : String} {a : α} (h : names.lookup s = some a)
    (stage : Stage) : name stage names (.ofJson (.str s)) = .ok a := by
  have hnamed : named names s = .ok a := by
    unfold named
    rw [h]
  cases stage <;> exact hnamed

theorem mapM_eq_ok {ε : Type} {f : α → Except ε β} {g : β → α} {xs : List β}
    (h : ∀ x ∈ xs, f (g x) = .ok x) : (xs.map g).mapM f = .ok xs := by
  induction xs with
  | nil => rfl
  | cons x xs ih =>
    rw [List.map_cons, List.mapM_cons, h x List.mem_cons_self,
      ih fun y hy => h y (List.mem_cons_of_mem _ hy)]
    rfl

theorem list_list {d : Decoder α} {f : α → Json} {xs : List α}
    (h : ∀ x ∈ xs, d (.ofJson (f x)) = .ok x) : list d (.ofJson (.list f xs)) = .ok xs := by
  have hitems := mapM_eq_ok (g := Reading.ofJson ∘ f) h
  unfold Json.list list Reading.ofJson
  rw [Reading.itemsOfJson_eq, List.map_map]
  dsimp only
  rw [hitems]
  rfl

theorem list_undoes {d : Decoder α} {f : α → Json} (h : Undoes d f) :
    Undoes (list d) (Json.list f) := fun _ => list_list fun x _ => h x

theorem map_entries {d : Decoder α} {f : α → Json} (h : Undoes d f) (m : OrderedMap String α) :
    map d (.ofJson (.obj (m.entries.map fun e => (e.1, f e.2)))) = .ok m := by
  have hentry : ∀ e ∈ m.entries, entry d (.text e.1, .ofJson (f e.2)) = .ok e := by
    intro e _
    unfold entry
    dsimp only
    rw [h e.2]
    rfl
  have hmembers := mapM_eq_ok (g := fun e : String × α => (Name.text e.1, Reading.ofJson (f e.2)))
    hentry
  unfold map Reading.ofJson
  rw [Reading.membersOfJson_eq, List.map_map]
  dsimp only
  show (List.mapM (entry d) (m.entries.map fun e => (Name.text e.1, Reading.ofJson (f e.2))) >>= _) = _
  rw [hmembers]
  exact congrArg Except.ok m.ofList_entries

/-! ## Records -/

theorem lookup_eq_none {ms : List (String × Json)} {k : String} (hk : k ∉ ms.map Prod.fst) :
    ms.lookup k = none :=
  List.lookup_eq_none_iff.mpr fun m hm => bne_iff_ne.mpr fun h =>
    hk (List.mem_map.mpr ⟨m, hm, h.symm⟩)

/-- It is all one whether a member is met before the others of an object or in front of them. -/
theorem lookup_field {ms : List (String × Json)} {fields : List (String × Nat × Reading)}
    {k : String} {i : Nat} {v : Json} (hk : k ∉ ms.map Prod.fst) (l : String) :
    ((ms.lookup l).map Reading.ofJson).or
        ((((k, i, Reading.ofJson v) :: fields).lookup l).map Prod.snd) =
      ((((k, v) :: ms).lookup l).map Reading.ofJson).or ((fields.lookup l).map Prod.snd) := by
  by_cases hl : l = k
  · subst hl
    rw [lookup_eq_none hk]
    simp
  · simp [List.lookup_cons, beq_eq_false_iff_ne.mpr hl]

/-- The fields that were met are just the members of an object. -/
structure Parts.Collects (p : Parts) (ms : List (String × Json)) : Prop where
  named : p.positional = false
  lookup : ∀ k, (p.fields.lookup k).map Prod.snd = (ms.lookup k).map Reading.ofJson

namespace Parts

variable {p : Parts} {ms : List (String × Json)} {k : String} {v : Json} {d : Decoder α} {a : α}
  {wanted : List String}

theorem Collects.exists_lookup (hp : p.Collects ms) (hk : ms.lookup k = some v) :
    ∃ i, p.fields.lookup k = some (i, .ofJson v) := by
  have h := hp.lookup k
  rw [hk] at h
  obtain ⟨⟨i, r⟩, hi, hr⟩ := Option.map_eq_some_iff.mp h
  cases hr
  exact ⟨i, hi⟩

/-- A field that was written. -/
theorem Collects.need (hp : p.Collects ms) (hk : ms.lookup k = some v)
    (hd : d (.ofJson v) = .ok a) : p.need k d = .value a := by
  obtain ⟨i, hi⟩ := hp.exists_lookup hk
  unfold Parts.need
  rw [hi]
  dsimp only
  rw [hd]
  rfl

/-- A field with a default that was written. -/
theorem Collects.getD (hp : p.Collects ms) (hk : ms.lookup k = some v)
    (hd : d (.ofJson v) = .ok a) (default : α) : p.getD k d default = .value a := by
  obtain ⟨i, hi⟩ := hp.exists_lookup hk
  unfold Parts.getD
  rw [hi]
  dsimp only
  rw [hd]
  rfl

/-- A field that was written if it has a value. -/
theorem Collects.get? (hp : p.Collects ms) {f : α → Json} {o : Option α}
    (hk : ms.lookup k = o.map f) (hd : ∀ a ∈ o, d (.ofJson (f a)) = .ok a)
    (hnull : ∀ a ∈ o, f a ≠ .null) : p.get? k d = .value o := by
  unfold Parts.get?
  cases o with
  | none =>
    have h := hp.lookup k
    rw [hk] at h
    unfold Parts.getD
    rw [Option.map_eq_none_iff.mp h]
  | some a =>
    refine hp.getD hk ?_ none
    rw [option_of_ne_null (hnull a rfl), hd a rfl]
    rfl

/-- Members that were not met before are put to the fields. -/
theorem foldl_addMember (hfault : p.fault = none) (hin : ∀ m ∈ ms, m.1 ∈ wanted)
    (hdistinct : (ms.map Prod.fst).Nodup) (hnew : ∀ m ∈ ms, p.fields.lookup m.1 = none) :
    ∃ q, (Reading.membersOfJson ms).foldl (addMember wanted) p = q ∧ q.fault = none ∧
      q.positional = p.positional ∧
      ∀ k, (q.fields.lookup k).map Prod.snd =
        ((ms.lookup k).map Reading.ofJson).or ((p.fields.lookup k).map Prod.snd) := by
  induction ms generalizing p with
  | nil => exact ⟨p, rfl, hfault, rfl, fun k => by simp⟩
  | cons m ms ih =>
    obtain ⟨k, v⟩ := m
    rw [List.map_cons, List.nodup_cons] at hdistinct
    have hne : ∀ m ∈ ms, m.1 ≠ k := fun m hm h =>
      hdistinct.1 (List.mem_map.mpr ⟨m, hm, h⟩)
    have hadd : addMember wanted p (.text k, .ofJson v) =
        { p with size := p.size + 1, fields := (k, p.size, .ofJson v) :: p.fields } := by
      have hk : k ∈ wanted := hin (k, v) List.mem_cons_self
      have hfree : p.fields.lookup k = none := hnew (k, v) List.mem_cons_self
      simp [addMember, hfault, hk, hfree]
    have hnext : ∀ m ∈ ms, (addMember wanted p (.text k, .ofJson v)).fields.lookup m.1 = none := by
      intro m hm
      rw [hadd, List.lookup_cons, beq_eq_false_iff_ne.mpr (hne m hm)]
      exact hnew m (List.mem_cons_of_mem _ hm)
    obtain ⟨q, hq, hqfault, hqnamed, hqlookup⟩ := ih (p := addMember wanted p (.text k, .ofJson v))
      (by rw [hadd]; exact hfault) (fun m hm => hin m (List.mem_cons_of_mem _ hm)) hdistinct.2 hnext
    refine ⟨q, hq, hqfault, by rw [hqnamed, hadd], fun l => ?_⟩
    rw [hqlookup, hadd]
    exact lookup_field hdistinct.1 l

theorem addStop_none (p : Parts) : p.addStop none = p := by
  unfold addStop
  split
  · contradiction
  · rfl

theorem finish_eq {x : Placed α} (hp : p.fault = none) (hx : x = .value a) :
    p.finish x = .ok a := by
  unfold Parts.finish
  rw [hx, hp]

end Parts

variable {ms : List (String × Json)} {wanted : List String}

/-- A record that was written as an object of some of its fields, in their order. -/
theorem record_obj {build : Parts → Placed α} {a : α} (hwanted : wanted.Nodup)
    (hsub : (ms.map Prod.fst).Sublist wanted)
    (hbuild : ∀ p : Parts, p.Collects ms → build p = .value a) :
    record wanted build (.ofJson (.obj ms)) = .ok a := by
  obtain ⟨q, hq, hfault, hnamed, hlookup⟩ :=
    Parts.foldl_addMember (p := ⟨[], none, 0, false⟩) rfl
      (fun m hm => hsub.subset (List.mem_map_of_mem hm)) (hwanted.sublist hsub) fun _ _ => rfl
  have hcollects : q.Collects ms := ⟨hnamed, fun k => by simpa using hlookup k⟩
  unfold record Reading.ofJson Parts.ofMembers
  dsimp only
  rw [hq, q.addStop_none]
  exact Parts.finish_eq hfault (hbuild q hcollects)

/-! ## Records spread over another one -/

namespace Spread

/-- Members are put to the own fields or to the rest. -/
theorem foldl_addMember {s : Spread} (hfault : s.fault = none)
    (hdistinct : ((ms.filter fun m => wanted.contains m.1).map Prod.fst).Nodup)
    (hnew : ∀ m ∈ ms, wanted.contains m.1 = true → s.own.lookup m.1 = none) :
    ∃ q, (Reading.membersOfJson ms).foldl (addMember wanted) s = q ∧ q.fault = none ∧
      q.rest = (Reading.membersOfJson (ms.filter fun m => !wanted.contains m.1)).reverse ++ s.rest ∧
      ∀ k, (q.own.lookup k).map Prod.snd =
        (((ms.filter fun m => wanted.contains m.1).lookup k).map Reading.ofJson).or
          ((s.own.lookup k).map Prod.snd) := by
  induction ms generalizing s with
  | nil => exact ⟨s, rfl, hfault, rfl, fun k => by simp⟩
  | cons m ms ih =>
    obtain ⟨k, v⟩ := m
    by_cases hk : wanted.contains k = true
    · -- a member of the own fields, with a name that was not met
      simp only [List.filter_cons, hk, if_true, Bool.not_true, Bool.false_eq_true, if_false]
        at hdistinct ⊢
      rw [List.map_cons, List.nodup_cons] at hdistinct
      have hadd : addMember wanted s (.text k, .ofJson v) =
          { s with size := s.size + 1, own := (k, s.size, .ofJson v) :: s.own } := by
        have hfree : s.own.lookup k = none := hnew (k, v) List.mem_cons_self hk
        unfold addMember
        simp only [hfault, hfree, hk, if_true]
        rfl
      have hne : ∀ m ∈ ms, wanted.contains m.1 = true → m.1 ≠ k := fun m hm hw h =>
        hdistinct.1 (List.mem_map.mpr ⟨m, List.mem_filter.mpr ⟨hm, hw⟩, h⟩)
      obtain ⟨q, hq, hqfault, hqrest, hqlookup⟩ :=
        ih (s := addMember wanted s (.text k, .ofJson v)) (by rw [hadd]; exact hfault) hdistinct.2
          fun m hm hw => by
            rw [hadd, List.lookup_cons, beq_eq_false_iff_ne.mpr (hne m hm hw)]
            exact hnew m (List.mem_cons_of_mem _ hm) hw
      refine ⟨q, hq, hqfault, by rw [hqrest, hadd], fun l => ?_⟩
      rw [hqlookup, hadd]
      exact lookup_field hdistinct.1 l
    · -- a member for the record that is spread; it is passed over, so it must be free of faults
      rw [Bool.not_eq_true] at hk
      simp only [List.filter_cons, hk, Bool.false_eq_true, if_false, Bool.not_false, if_true]
        at hdistinct ⊢
      have hadd : addMember wanted s (.text k, .ofJson v) =
          { s with size := s.size + 1, rest := (.text k, .ofJson v) :: s.rest } := by
        unfold addMember
        simp only [hfault, hk, Reading.fault?_ofJson]
        rfl
      obtain ⟨q, hq, hqfault, hqrest, hqlookup⟩ :=
        ih (s := addMember wanted s (.text k, .ofJson v)) (by rw [hadd]; exact hfault) hdistinct
          fun m hm hw => by
            rw [hadd]
            exact hnew m (List.mem_cons_of_mem _ hm) hw
      refine ⟨q, hq, hqfault, ?_, fun l => by rw [hqlookup, hadd]⟩
      rw [hqrest, hadd, Reading.membersOfJson, List.reverse_cons, List.append_assoc]
      rfl

theorem foldl_of_fault {s : Spread} (hs : s.fault.isSome = true) (ms : List (Name × Reading)) :
    ms.foldl (addMember wanted) s = s := by
  induction ms with
  | nil => rfl
  | cons m ms ih =>
    have hadd : addMember wanted s m = s := if_pos hs
    rw [List.foldl_cons, hadd, ih]

end Spread

/-- A record whose own members and those of the record spread over it were written as one object. -/
theorem spread_obj {build : Parts → Placed α} {inner : Decoder β} {join : α → β → γ} {a : α} {b : β}
    {own rest : List (String × Json)}
    (hown : ms.filter (fun m => wanted.contains m.1) = own)
    (hrest : ms.filter (fun m => !wanted.contains m.1) = rest)
    (hdistinct : (own.map Prod.fst).Nodup)
    (hbuild : ∀ p : Parts, p.Collects own → build p = .value a)
    (hinner : inner (.ofJson (.obj rest)) = .ok b) :
    spread wanted build inner join (.ofJson (.obj ms)) = .ok (join a b) := by
  subst hown hrest
  obtain ⟨q, hq, hfault, hqrest, hlookup⟩ :=
    Spread.foldl_addMember (s := ⟨[], [], none, 0⟩) rfl hdistinct fun _ _ _ => rfl
  have hcollects : Parts.Collects ⟨q.own, q.fault, q.size, false⟩
      (ms.filter fun m => wanted.contains m.1) :=
    ⟨rfl, fun k => (hlookup k).trans Option.or_none⟩
  unfold spread Reading.ofJson
  dsimp only
  rw [hq, Parts.addStop_none, hqrest, List.append_nil, List.reverse_reverse,
    Parts.finish_eq hfault (hbuild _ hcollects)]
  dsimp only [bind, Except.bind]
  rw [show Reading.obj _ none = Reading.ofJson (.obj _) from rfl, hinner]
  rfl

/-- A field of its own that was written again is a mismatch, whatever comes after it. -/
theorem spread_again {build : Parts → Placed α} {inner : Decoder β} {join : α → β → γ} {a : α}
    {own after : List (String × Json)} {k : String} {v : Json}
    (hown : ms.filter (fun m => wanted.contains m.1) = own) (hdistinct : (own.map Prod.fst).Nodup)
    (hbuild : ∀ p : Parts, p.Collects own → build p = .value a) (hk : (own.lookup k).isSome = true)
    (hwanted : wanted.contains k = true) :
    spread wanted build inner join (.ofJson (.obj (ms ++ (k, v) :: after))) =
      .error .mismatched := by
  subst hown
  obtain ⟨q, hq, hfault, -, hlookup⟩ :=
    Spread.foldl_addMember (s := ⟨[], [], none, 0⟩) rfl hdistinct fun _ _ _ => rfl
  have hmet : (q.own.lookup k).isSome = true := by
    have hk' := congrArg Option.isSome ((hlookup k).trans Option.or_none)
    rw [Option.isSome_map, Option.isSome_map] at hk'
    exact hk'.trans hk
  have hadd : Spread.addMember wanted q (.text k, .ofJson v) =
      { q with size := q.size + 1, fault := some (q.size, .mismatched) } := by
    unfold Spread.addMember
    simp only [hfault, hwanted, hmet, if_true]
    rfl
  have hfold : (Reading.membersOfJson (ms ++ (k, v) :: after)).foldl (Spread.addMember wanted)
      ⟨[], [], none, 0⟩ = { q with size := q.size + 1, fault := some (q.size, .mismatched) } := by
    rw [Reading.membersOfJson_eq, List.map_append, ← Reading.membersOfJson_eq, List.foldl_append,
      hq, List.map_cons, List.foldl_cons, hadd]
    exact Spread.foldl_of_fault rfl _
  have hcollects : Parts.Collects ⟨q.own, some (q.size, .mismatched), q.size + 1, false⟩
      (ms.filter fun m => wanted.contains m.1) :=
    ⟨rfl, fun l => (hlookup l).trans Option.or_none⟩
  unfold spread Reading.ofJson
  dsimp only
  rw [hfold]
  dsimp only
  rw [Parts.addStop_none, hbuild _ hcollects]
  rfl

/-! ## Tagged unions -/

theorem splitTag_of_ne {stage : Stage} {tag : String} {variants : List (String × α)}
    {found : Option α} {rest : List (Name × Reading)} (h : ∀ m ∈ ms, m.1 ≠ tag) :
    splitTag stage tag variants found rest (Reading.membersOfJson ms) =
      .ok (found, rest.reverse ++ Reading.membersOfJson ms) := by
  induction ms generalizing rest with
  | nil => simp [Reading.membersOfJson, splitTag]
  | cons m ms ih =>
    obtain ⟨k, v⟩ := m
    have hk : k ≠ tag := h (k, v) List.mem_cons_self
    simp only [Reading.membersOfJson, splitTag, if_neg hk, Reading.fault?_ofJson]
    rw [ih fun m hm => h m (List.mem_cons_of_mem _ hm), List.reverse_cons, List.append_assoc]
    rfl

/-- A variant that was written with its tag first. -/
theorem tagged_obj {stage : Stage} {tag label : String} {variants : List (String × Decoder α)}
    {d : Decoder α} {a : α} (hlabel : variants.lookup label = some d) (h : ∀ m ∈ ms, m.1 ≠ tag)
    (hd : d (.ofJson (.obj ms)) = .ok a) :
    tagged stage tag variants (.ofJson (.obj ((tag, .str label) :: ms))) = .ok a := by
  have hvariant : variant stage variants (.ofJson (.str label)) = .ok d := by
    show named variants label = _
    unfold named
    rw [hlabel]
  have hsplit : splitTag stage tag variants none []
      (Reading.membersOfJson ((tag, .str label) :: ms)) =
        .ok (some d, Reading.membersOfJson ms) := by
    simp only [Reading.membersOfJson, splitTag, if_true, hvariant]
    exact splitTag_of_ne h
  unfold tagged Reading.ofJson
  dsimp only
  rw [hsplit]
  dsimp only
  rw [show Reading.obj _ none = Reading.ofJson (.obj ms) from rfl, hd]
  rfl

end Decode
end Json
end SliceRecovery
