import SliceRecovery.Proofs.Journal

/-!
# SliceRecovery.Proofs.Declaring -- which variables stand after a declaration

A variable covers the addresses from its own up to its end, the end being capped at the largest
address. Two variables clash when they stand at one address or cover a common one. After a
declaration the variables are the new one and those of before that do not clash with it; this is
the only fact about `define` that its users need, besides its journal.
-/

namespace SliceRecovery

/-! ## Covered addresses -/

namespace Variable

/-- An address lies in the byte range of a variable. -/
def Covers (types : TypeTable) (v : Variable) (a : Address) : Prop :=
  v.address ≤ a ∧ a < Word.addCapped v.address (Analysis.extent types v)

/-- Two variables cover a common address. -/
def Overlap (types : TypeTable) (v w : Variable) : Prop :=
  ∃ a, v.Covers types a ∧ w.Covers types a

/-- Two variables cannot both be declared: they stand at one address or overlap. -/
def Clash (types : TypeTable) (v w : Variable) : Prop :=
  v.address = w.address ∨ v.Overlap types w

end Variable

namespace Analysis

variable {h i : Analysis} {types : TypeTable} {u v w : Variable} {a b : Address}
  {type : DataType} {name : Option String}

theorem extent_pos (types : TypeTable) (v : Variable) : 0 < (extent types v).toNat := by
  unfold extent
  split
  · decide
  · split
    · decide
    · rename_i w hw hne
      have : w.toNat ≠ 0 := fun h => hne (UInt64.toNat_inj.mp h)
      omega

/-- Below the largest address a variable covers at least its own address. -/
theorem lt_end (types : TypeTable) (hv : v.address < Word.top) :
    v.address < Word.addCapped v.address (extent types v) := by
  have hpos := extent_pos types v
  rw [Word.lt_top_iff] at hv
  rw [UInt64.lt_iff_toNat_lt, Word.toNat_addCapped]
  omega

/-- The test that a declaration makes on every variable decides overlapping. -/
theorem overlaps_iff :
    overlaps types w.address (Word.addCapped w.address (extent types w)) v = true ↔
      v.Overlap types w := by
  unfold overlaps Variable.Overlap Variable.Covers
  rw [Bool.and_eq_true, decide_eq_true_iff, decide_eq_true_iff]
  constructor
  · rintro ⟨hv, hw⟩
    -- the greater of the two addresses is the first common one
    rcases UInt64.le_total v.address w.address with h | h
    · refine ⟨w.address, ⟨h, hw⟩, UInt64.le_refl _, ?_⟩
      rw [UInt64.lt_iff_toNat_lt, Word.toNat_addCapped] at hw ⊢
      have hpos := extent_pos types w
      omega
    · refine ⟨v.address, ⟨UInt64.le_refl _, ?_⟩, h, hv⟩
      rw [UInt64.lt_iff_toNat_lt, Word.toNat_addCapped] at hv ⊢
      have hpos := extent_pos types v
      omega
  · rintro ⟨a, ⟨hva, hav⟩, hwa, haw⟩
    exact ⟨UInt64.lt_of_le_of_lt hva haw, UInt64.lt_of_le_of_lt hwa hav⟩

/-! ## Removing variables -/

theorem types_evict (h : Analysis) (a : Address) : (h.evict a).types = h.types := by
  unfold evict
  split
  · rfl
  · rfl

theorem get?_evict (h : Analysis) (a b : Address) :
    (h.evict a).declared.get? b = if b = a then none else h.declared.get? b := by
  unfold evict
  split
  · rename_i hn
    split
    · subst b
      exact hn
    · rfl
  · exact VariableTable.get?_erase _ _ _

theorem types_foldl_evict (as : List Address) (h : Analysis) :
    (as.foldl evict h).types = h.types := by
  induction as generalizing h with
  | nil => rfl
  | cons a as ih => rw [List.foldl_cons, ih, types_evict]

theorem get?_foldl_evict (as : List Address) (h : Analysis) (b : Address) :
    (as.foldl evict h).declared.get? b = if b ∈ as then none else h.declared.get? b := by
  induction as generalizing h with
  | nil => rfl
  | cons a as ih =>
    rw [List.foldl_cons, ih, get?_evict]
    by_cases hb : b = a
    · simp [hb]
    · simp [hb]

/-- What is removed one after the other is journalled, and each variable is recorded. -/
theorem journals_foldl_evict (as : List Address) (h : Analysis) :
    ∃ es, Journals h (as.foldl evict h) es ∧
      ∀ b ∈ as, ∀ v, h.declared.get? b = some v → .variableRemoved v ∈ es := by
  induction as generalizing h with
  | nil => exact ⟨[], .refl h, by simp⟩
  | cons a as ih =>
    obtain ⟨es, hes, hfirst⟩ := journals_evict h a
    obtain ⟨fs, hfs, hrest⟩ := ih (h.evict a)
    refine ⟨fs ++ es, hes.trans hfs, ?_⟩
    intro b hb v hv
    by_cases hba : b = a
    · subst hba
      exact List.mem_append_right _ (hfirst v hv)
    · have hv : (h.evict a).declared.get? b = some v := by rw [get?_evict, if_neg hba, hv]
      exact List.mem_append_left _ (hrest b (List.mem_of_ne_of_mem hba hb) v hv)

theorem mem_evict : u ∈ (h.evict a).declared.values ↔ u ∈ h.declared.values ∧ u.address ≠ a := by
  rw [VariableTable.mem_values_iff, VariableTable.mem_values_iff, get?_evict]
  by_cases hu : u.address = a
  · simp [hu]
  · simp [hu]

theorem frame_evict (h : Analysis) (a : Address) : Frame h (h.evict a) := by
  unfold evict
  split
  · exact .refl h
  · exact .record ⟨rfl, rfl⟩

theorem frame_foldl_evict (as : List Address) (h : Analysis) : Frame h (as.foldl evict h) := by
  induction as generalizing h with
  | nil => exact .refl h
  | cons a as ih => exact (frame_evict h a).trans (ih _)

/-- Removing on demand either succeeds or finds nothing to remove. -/
theorem undefine_cases (h : Analysis) (a : Address) :
    h.undefine a = .ok (h.evict a) ∨ (∃ e, h.undefine a = .error e) ∧ h.evict a = h := by
  unfold undefine evict
  cases h.declared.get? a with
  | none => exact Or.inr ⟨⟨_, rfl⟩, rfl⟩
  | some v => exact Or.inl rfl

/-! ## Declaring a variable -/

/-- The addresses of the variables that a declaration removes. -/
def covered (h : Analysis) (v : Variable) : List Address :=
  (h.declared.values.filter
    (overlaps h.types v.address (Word.addCapped v.address (extent h.types v)))).map
      Variable.address

/-- A declaration succeeds when its type has a width, and then removes what is covered and puts
the new variable in place. -/
theorem define_eq_ok_iff :
    h.define a type name = .ok i ↔
      (TypeTable.width? h.types type).isSome ∧
      i = (({ (h.covered ⟨a, type, name, none⟩).foldl evict h with
        declared := ((h.covered ⟨a, type, name, none⟩).foldl evict h).declared.place
          ⟨a, type, name, none⟩ }) : Analysis).record (.variableAdded a) := by
  unfold define covered extent
  cases hw : TypeTable.width? h.types type with
  | none => simp
  | some w =>
    simp only [Except.ok.injEq, Option.isSome_some, true_and]
    exact eq_comm

theorem mem_covered : b ∈ h.covered w ↔ ∃ v, h.declared.get? b = some v ∧ v.Overlap h.types w := by
  unfold covered
  rw [List.mem_map]
  constructor
  · rintro ⟨v, hv, rfl⟩
    rw [List.mem_filter, VariableTable.mem_values_iff, overlaps_iff] at hv
    exact ⟨v, hv⟩
  · rintro ⟨v, hv, ho⟩
    have hb := VariableTable.address_of_get? hv
    subst hb
    refine ⟨v, ?_, rfl⟩
    rw [List.mem_filter, VariableTable.mem_values_iff, overlaps_iff]
    exact ⟨hv, ho⟩

theorem types_define (hi : h.define a type name = .ok i) : i.types = h.types := by
  obtain ⟨-, rfl⟩ := define_eq_ok_iff.mp hi
  exact types_foldl_evict _ _

theorem frame_define (hi : h.define a type name = .ok i) : Frame h i := by
  obtain ⟨-, rfl⟩ := define_eq_ok_iff.mp hi
  exact (frame_foldl_evict _ h).trans (.record ⟨rfl, rfl⟩)

theorem width_of_define (hi : h.define a type name = .ok i) :
    (TypeTable.width? h.types type).isSome :=
  (define_eq_ok_iff.mp hi).1

/-- After a declaration stand the new variable and those that do not clash with it. -/
theorem mem_define (hi : h.define a type name = .ok i) :
    u ∈ i.declared.values ↔
      u = ⟨a, type, name, none⟩ ∨
      u ∈ h.declared.values ∧ ¬ u.Clash h.types ⟨a, type, name, none⟩ := by
  obtain ⟨-, rfl⟩ := define_eq_ok_iff.mp hi
  rw [VariableTable.mem_values_iff, VariableTable.mem_values_iff]
  show (((h.covered ⟨a, type, name, none⟩).foldl evict h).declared.place
    ⟨a, type, name, none⟩).get? u.address = some u ↔ _
  rw [VariableTable.get?_place, get?_foldl_evict]
  by_cases hu : u.address = a
  · rw [if_pos hu]
    constructor
    · intro he
      cases he
      exact Or.inl rfl
    · rintro (rfl | ⟨-, hc⟩)
      · rfl
      · exact absurd (Or.inl hu) hc
  · rw [if_neg hu]
    split
    · rename_i hm
      obtain ⟨v, hv, ho⟩ := mem_covered.mp hm
      constructor
      · intro he
        cases he
      · rintro (rfl | ⟨hg, hc⟩)
        · exact absurd rfl hu
        · rw [hg] at hv
          cases hv
          exact absurd (Or.inr ho) hc
    · rename_i hm
      constructor
      · intro hg
        refine Or.inr ⟨hg, ?_⟩
        rintro (hc | ho)
        · exact hu hc
        · exact hm (mem_covered.mpr ⟨u, hg, ho⟩)
      · rintro (rfl | ⟨hg, -⟩)
        · exact absurd rfl hu
        · exact hg

/-- Below the largest address a variable overlaps any other that stands at its address. -/
theorem overlap_of_address_eq (hva : v.address = w.address) (hlt : w.address < Word.top) :
    v.Overlap types w := by
  have hv : v.address < Word.top := by rw [hva]; exact hlt
  refine ⟨w.address, ⟨UInt64.le_of_eq hva, ?_⟩, UInt64.le_refl _, lt_end types hlt⟩
  rw [← hva]
  exact lt_end types hv

/-- A declaration is journalled below the largest address, and at it when nothing stands there.
Every variable that is removed is recorded. -/
theorem journals_define (hi : h.define a type name = .ok i)
    (free : a < Word.top ∨ h.declared.get? a = none) :
    ∃ es, Journals h i es ∧ es ≠ [] ∧ ∀ u ∈ h.declared.values,
      u.Overlap h.types ⟨a, type, name, none⟩ → .variableRemoved u ∈ es := by
  obtain ⟨-, rfl⟩ := define_eq_ok_iff.mp hi
  obtain ⟨es, hes, hremoved⟩ := journals_foldl_evict (h.covered ⟨a, type, name, none⟩) h
  have hnone : ((h.covered ⟨a, type, name, none⟩).foldl evict h).declared.get? a = none := by
    rw [get?_foldl_evict]
    split
    · rfl
    · rename_i hm
      rcases free with hlt | hn
      · cases hv : h.declared.get? a with
        | none => rfl
        | some v =>
          -- the variable at the address itself overlaps the new one there
          have hva := VariableTable.address_of_get? hv
          exact absurd (mem_covered.mpr ⟨v, hv, overlap_of_address_eq hva hlt⟩) hm
      · exact hn
  refine ⟨_, hes.trans (.record (e := .variableAdded a) rfl ?_), by simp, ?_⟩
  · show { (h.covered ⟨a, type, name, none⟩).foldl evict h with
      declared := (((h.covered ⟨a, type, name, none⟩).foldl evict h).declared.place
        ⟨a, type, name, none⟩).erase a } = (h.covered ⟨a, type, name, none⟩).foldl evict h
    rw [VariableTable.erase_place hnone]
  · intro u hu ho
    have hu := VariableTable.mem_values_iff.mp hu
    exact List.mem_append_right _ (hremoved _ (mem_covered.mpr ⟨u, hu, ho⟩) u hu)

/-- Characters always have a width. -/
theorem width?_text (types : TypeTable) (n : UInt64) :
    TypeTable.width? types (.text n) = some n := by
  show some (Word.mulCapped 1 n) = some n
  congr 1
  apply UInt64.toNat_inj.mp
  rw [Word.toNat_mulCapped]
  have := n.toNat_lt
  unfold Word.span
  simp only [UInt64.toNat_one]
  omega

/-- Declaring characters never fails. -/
theorem define_text (h : Analysis) (a : Address) (n : UInt64) (name : Option String) :
    ∃ i, h.define a (.text n) name = .ok i :=
  ⟨_, define_eq_ok_iff.mpr ⟨by rw [width?_text]; rfl, rfl⟩⟩

end Analysis

/-! ## Declarations one after the other -/

namespace Variable

variable {types : TypeTable} {t t' t'' : VariableTable} {ps qs : List Variable} {v w : Variable}

/-- `v` is one of the declarations `ps`, and no later one of them clashes with it. -/
def Lasts (types : TypeTable) (ps : List Variable) (v : Variable) : Prop :=
  ∃ earlier later, ps = earlier ++ v :: later ∧ ∀ w ∈ later, ¬ v.Clash types w

/-- `v` stands after the declarations `ps` on a table: it lasts among them, or it stood before and
clashes with none. -/
def Stands (types : TypeTable) (t : VariableTable) (ps : List Variable) (v : Variable) : Prop :=
  v.Lasts types ps ∨ v ∈ t.values ∧ ∀ w ∈ ps, ¬ v.Clash types w

theorem not_lasts_nil : ¬ v.Lasts types [] := by
  rintro ⟨earlier, later, h, -⟩
  exact absurd h (by simp)

theorem lasts_singleton : v.Lasts types [w] ↔ v = w := by
  constructor
  · rintro ⟨earlier, later, h, -⟩
    have hv : v ∈ [w] := h ▸ List.mem_append_right _ List.mem_cons_self
    exact List.mem_singleton.mp hv
  · rintro rfl
    exact ⟨[], [], rfl, by simp⟩

theorem lasts_append :
    v.Lasts types (ps ++ qs) ↔
      v.Lasts types qs ∨ v.Lasts types ps ∧ ∀ w ∈ qs, ¬ v.Clash types w := by
  constructor
  · rintro ⟨earlier, later, h, hl⟩
    rcases List.append_eq_append_iff.mp h with ⟨mid, rfl, hq⟩ | ⟨mid, hp, hl'⟩
    · exact Or.inl ⟨mid, later, hq, hl⟩
    · -- the variable is in the first list, unless that ends right before it
      cases mid with
      | nil => exact Or.inl ⟨[], later, hl'.symm, hl⟩
      | cons u mid =>
        obtain ⟨rfl, rfl⟩ := List.cons.inj hl'
        refine Or.inr ⟨⟨earlier, mid, hp, ?_⟩, ?_⟩
        · exact fun w hw => hl w (List.mem_append_left _ hw)
        · exact fun w hw => hl w (List.mem_append_right _ hw)
  · rintro (⟨earlier, later, rfl, hl⟩ | ⟨⟨earlier, later, rfl, hl⟩, hq⟩)
    · exact ⟨ps ++ earlier, later, by simp, hl⟩
    · refine ⟨earlier, later ++ qs, by simp, fun w hw => ?_⟩
      rcases List.mem_append.mp hw with hw | hw
      · exact hl w hw
      · exact hq w hw

/-- What stands after two lists of declarations is found one list at a time. -/
theorem stands_append (h : ∀ v, v ∈ t'.values ↔ v.Stands types t ps) :
    v.Stands types t (ps ++ qs) ↔ v.Stands types t' qs := by
  unfold Stands at h ⊢
  rw [lasts_append, h, List.forall_mem_append]
  constructor
  · rintro ((hq | ⟨hp, hc⟩) | ⟨ht, hp, hc⟩)
    · exact Or.inl hq
    · exact Or.inr ⟨Or.inl hp, hc⟩
    · exact Or.inr ⟨Or.inr ⟨ht, hp⟩, hc⟩
  · rintro (hq | ⟨hp | ⟨ht, hp⟩, hc⟩)
    · exact Or.inl (Or.inl hq)
    · exact Or.inl (Or.inr ⟨hp, hc⟩)
    · exact Or.inr ⟨ht, hp, hc⟩

theorem stands_nil : v.Stands types t [] ↔ v ∈ t.values := by
  unfold Stands
  rw [or_iff_right not_lasts_nil]
  simp

end Variable

/-- `define` is one declaration. -/
theorem Analysis.stands_define {h i : Analysis} {a : Address} {type : DataType}
    {name : Option String} (hi : h.define a type name = .ok i) (v : Variable) :
    v ∈ i.declared.values ↔ v.Stands h.types h.declared [⟨a, type, name, none⟩] := by
  rw [Analysis.mem_define hi]
  unfold Variable.Stands
  rw [Variable.lasts_singleton]
  simp

end SliceRecovery
