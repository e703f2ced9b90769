import SliceRecovery.Proofs.Declaring

/-!
# SliceRecovery.Proofs.Clearing -- what a declaration clears, by exact ranges

A declaration compares ranges whose ends are capped at the largest address, so that no range covers
that address itself. Taken exactly, a range may cover it. The two views agree on all places below
it; they part only where two variables meet at the largest address alone, and then one of them
starts there (`ShareTop`). A declaration does all that it should, except where the new variable and
one that stands share the largest address in this way: the other then stays beside the new one, or
is replaced by it and lost to the journal.
-/

namespace SliceRecovery

/-! ## Exact ranges -/

namespace Variable

variable {types : TypeTable} {u v : Variable} {n : Nat}

/-- A place lies in the exact range of a variable, which may end past the largest address. -/
def Spans (types : TypeTable) (v : Variable) (n : Nat) : Prop :=
  v.address.toNat ≤ n ∧ n < v.address.toNat + (Analysis.extent types v).toNat

/-- The exact ranges of two variables have a place in common. -/
def Meets (types : TypeTable) (u v : Variable) : Prop := ∃ n, u.Spans types n ∧ v.Spans types n

/-- Both variables reach the largest address, and one of them starts there. -/
def ShareTop (types : TypeTable) (u v : Variable) : Prop :=
  (u.address = Word.top ∨ v.address = Word.top) ∧
    u.Spans types Word.top.toNat ∧ v.Spans types Word.top.toNat

instance (types : TypeTable) (v : Variable) (n : Nat) : Decidable (v.Spans types n) :=
  inferInstanceAs (Decidable (_ ∧ _))

instance (types : TypeTable) (u v : Variable) : Decidable (u.ShareTop types v) :=
  inferInstanceAs (Decidable (_ ∧ _ ∧ _))

theorem spans_address (types : TypeTable) (v : Variable) : v.Spans types v.address.toNat := by
  have hpos := Analysis.extent_pos types v
  exact ⟨Nat.le_refl _, by omega⟩

/-- The capped range of a variable is its exact range below the largest address. -/
theorem covers_iff {a : Address} :
    v.Covers types a ↔ v.Spans types a.toNat ∧ a.toNat < Word.top.toNat := by
  unfold Covers Spans
  rw [UInt64.le_iff_toNat_le, UInt64.lt_iff_toNat_lt, Word.toNat_addCapped,
    show Word.top.toNat = Word.span - 1 from rfl]
  omega

/-- Variables overlap where their exact ranges meet below the largest address. -/
theorem overlap_iff_exists :
    u.Overlap types v ↔ ∃ n, n < Word.top.toNat ∧ u.Spans types n ∧ v.Spans types n := by
  constructor
  · rintro ⟨a, hu, hv⟩
    obtain ⟨hu, hlt⟩ := covers_iff.mp hu
    exact ⟨a.toNat, hlt, hu, (covers_iff.mp hv).1⟩
  · rintro ⟨n, hlt, hu, hv⟩
    have htop := Word.top.toNat_lt
    have hn : (UInt64.ofNat n).toNat = n := UInt64.toNat_ofNat_of_lt' (Nat.lt_trans hlt htop)
    refine ⟨UInt64.ofNat n, covers_iff.mpr ?_, covers_iff.mpr ?_⟩
    · rw [hn]
      exact ⟨hu, hlt⟩
    · rw [hn]
      exact ⟨hv, hlt⟩

theorem Overlap.meets (ho : u.Overlap types v) : u.Meets types v := by
  obtain ⟨n, -, hu, hv⟩ := overlap_iff_exists.mp ho
  exact ⟨n, hu, hv⟩

theorem ShareTop.meets (ht : u.ShareTop types v) : u.Meets types v := ⟨_, ht.2⟩

theorem Clash.meets (hc : u.Clash types v) : u.Meets types v := by
  rcases hc with hsame | ho
  · refine ⟨u.address.toNat, spans_address types u, ?_⟩
    rw [hsame]
    exact spans_address types v
  · exact ho.meets

/-- A variable at the largest address covers nothing by its capped range. -/
theorem ShareTop.not_overlap (ht : u.ShareTop types v) : ¬ u.Overlap types v := by
  intro ho
  obtain ⟨n, hlt, hu, hv⟩ := overlap_iff_exists.mp ho
  rcases ht.1 with htop | htop
  · have hle := hu.1
    rw [htop] at hle
    omega
  · have hle := hv.1
    rw [htop] at hle
    omega

/-- Variables that meet overlap, or share the largest address. -/
theorem Meets.cases (hm : u.Meets types v) : u.Overlap types v ∨ u.ShareTop types v := by
  obtain ⟨n, ⟨hun, hnu⟩, hvn, hnv⟩ := hm
  have hu := u.address.toNat_lt
  have hv := v.address.toNat_lt
  have htop : Word.top.toNat = 18446744073709551615 := rfl
  -- the greater of the two addresses is the first common place
  rcases Nat.lt_or_ge (max u.address.toNat v.address.toNat) Word.top.toNat with hlt | hge
  · refine Or.inl (overlap_iff_exists.mpr ⟨_, hlt, ⟨?_, ?_⟩, ?_, ?_⟩)
    · exact Nat.le_max_left _ _
    · omega
    · exact Nat.le_max_right _ _
    · omega
  · refine Or.inr ⟨?_, ⟨by omega, by omega⟩, by omega, by omega⟩
    rcases Nat.le_total u.address.toNat v.address.toNat with h | h
    · exact Or.inr (UInt64.toNat_inj.mp (by omega))
    · exact Or.inl (UInt64.toNat_inj.mp (by omega))

end Variable

/-! ## Declarations -/

namespace Analysis

variable {h i : Analysis} {a : Address} {type : DataType} {name : Option String} {u : Variable}

/-- What a declaration of `v` should make of an analysis: `v` stands, nothing that it meets stands
beside it, nothing else has changed, and what was removed or replaced is recorded in the open batch,
so that taking the batch back brings back what it would have brought back before. -/
structure Clears (h i : Analysis) (v : Variable) : Prop where
  stands : v ∈ i.declared.values
  apart : ∀ u ∈ i.declared.values, u ≠ v → ¬ u.Meets h.types v
  unchanged : ∀ u ∈ h.declared.values, ¬ u.Meets h.types v → u ∈ i.declared.values
  recorded : ∃ es, i.batch = h.batch.map (es ++ ·) ∧
    ∀ u ∈ h.declared.values, u.Meets h.types v → .variableRemoved u ∈ es
  reverted : i.revert = h.revert

/-- What meets a new variable and still stands shares the largest address with it. -/
theorem shareTop_of_define (hi : h.define a type name = .ok i) (hu : u ∈ i.declared.values)
    (hne : u ≠ ⟨a, type, name, none⟩) (hm : u.Meets h.types ⟨a, type, name, none⟩) :
    u.ShareTop h.types ⟨a, type, name, none⟩ := by
  rcases (mem_define hi).mp hu with heq | ⟨-, hc⟩
  · exact absurd heq hne
  · rcases hm.cases with ho | ht
    · exact absurd (Or.inr ho) hc
    · exact ht

theorem mem_define_of_not_meets (hi : h.define a type name = .ok i) (hu : u ∈ h.declared.values)
    (hm : ¬ u.Meets h.types ⟨a, type, name, none⟩) : u ∈ i.declared.values :=
  (mem_define hi).mpr (Or.inr ⟨hu, fun hc => hm hc.meets⟩)

/-- Where nothing shares the largest address with the new variable, a declaration does all that it
should. -/
theorem clears_of_define (hi : h.define a type name = .ok i)
    (hfree : ∀ u ∈ h.declared.values, ¬ u.ShareTop h.types ⟨a, type, name, none⟩) :
    h.Clears i ⟨a, type, name, none⟩ := by
  have hexact : a < Word.top ∨ h.declared.get? a = none := by
    rcases Decidable.em (a = Word.top) with htop | hne
    · refine Or.inr (Option.eq_none_iff_forall_ne_some.mpr ?_)
      -- a variable at the largest address would share it with the new one
      intro v hv
      have hva := VariableTable.address_of_get? hv
      subst hva
      refine hfree v (VariableTable.mem_values_iff.mpr hv) ⟨Or.inl htop, ?_, ?_⟩
      · rw [← htop]
        exact v.spans_address h.types
      · rw [← htop]
        exact Variable.spans_address h.types ⟨v.address, type, name, none⟩
    · exact Or.inl (Word.lt_top_of_ne hne)
  obtain ⟨es, hes, -, hremoved⟩ := journals_define hi hexact
  refine ⟨(mem_define hi).mpr (Or.inl rfl), ?_, fun u => mem_define_of_not_meets hi, ?_,
    hes.revert_eq⟩
  · intro u hu hne hm
    have ht := shareTop_of_define hi hu hne hm
    rcases (mem_define hi).mp hu with heq | ⟨hu, -⟩
    · exact hne heq
    · exact hfree u hu ht
  · refine ⟨es, hes.batch_eq, ?_⟩
    intro u hu hm
    rcases hm.cases with ho | ht
    · exact hremoved u hu ho
    · exact absurd ht (hfree u hu)

/-- At the largest address a declaration removes nothing and only records itself. -/
theorem batch_define_top (hi : h.define Word.top type name = .ok i) :
    i.batch = h.batch.map (.variableAdded Word.top :: ·) := by
  obtain ⟨-, rfl⟩ := define_eq_ok_iff.mp hi
  have hnone : h.covered ⟨Word.top, type, name, none⟩ = [] := by
    apply List.eq_nil_iff_forall_not_mem.mpr
    intro b hb
    obtain ⟨v, -, n, -, hn⟩ := mem_covered.mp hb
    obtain ⟨⟨hle, -⟩, hlt⟩ := Variable.covers_iff.mp hn
    exact Nat.not_lt.mpr hle hlt
  rw [hnone]
  rfl

/-- A variable that shares the largest address with the new one stays beside it, or is replaced by
it without a record. -/
theorem not_clears_of_shareTop (hopen : h.batch.isSome) (hi : h.define a type name = .ok i)
    (hu : u ∈ h.declared.values) (ht : u.ShareTop h.types ⟨a, type, name, none⟩) :
    ¬ h.Clears i ⟨a, type, name, none⟩ := by
  intro hclears
  by_cases hsame : u.address = a
  · have htop : a = Word.top := by
      rcases ht.1 with h | h
      · rw [← hsame, h]
      · exact h
    subst htop
    obtain ⟨es, hes, hrecorded⟩ := hclears.recorded
    obtain ⟨fs, hfs⟩ := Option.isSome_iff_exists.mp hopen
    -- the batch has one edit more, and that is not the removal
    rw [batch_define_top hi, hfs, Option.map_some, Option.map_some, Option.some.injEq] at hes
    have hes : [Edit.variableAdded Word.top] ++ fs = es ++ fs := hes
    have hmem := hrecorded u hu ht.meets
    rw [← List.append_cancel_right hes] at hmem
    simp at hmem
  · have hstays : u ∈ i.declared.values := by
      refine (mem_define hi).mpr (Or.inr ⟨hu, ?_⟩)
      rintro (hc | ho)
      · exact hsame hc
      · exact ht.not_overlap ho
    refine hclears.apart u hstays ?_ ht.meets
    rintro rfl
    exact hsame rfl

/-- **A declaration clears what it covers, unless the largest address is shared.** In an open batch,
a declaration of a type with a width succeeds, whatever its address. What meets the new variable by
exact ranges and still stands shares the largest address with it, and what does not meet it is
unchanged. The declaration does all that it should, clearing its range and recording every variable
that it removes or replaces, just if no variable shares the largest address with the new one. -/
theorem define_clears (a : Address) (name : Option String) (hopen : h.batch.isSome)
    (hsized : (TypeTable.width? h.types type).isSome) :
    ∃ i, h.define a type name = .ok i ∧
      (∀ u ∈ i.declared.values, u ≠ ⟨a, type, name, none⟩ →
        u.Meets h.types ⟨a, type, name, none⟩ → u.ShareTop h.types ⟨a, type, name, none⟩) ∧
      (∀ u ∈ h.declared.values, ¬ u.Meets h.types ⟨a, type, name, none⟩ →
        u ∈ i.declared.values) ∧
      (h.Clears i ⟨a, type, name, none⟩ ↔
        ∀ u ∈ h.declared.values, ¬ u.ShareTop h.types ⟨a, type, name, none⟩) := by
  obtain ⟨i, hi⟩ : ∃ i, h.define a type name = .ok i := ⟨_, define_eq_ok_iff.mpr ⟨hsized, rfl⟩⟩
  refine ⟨i, hi, fun u => shareTop_of_define hi, fun u => mem_define_of_not_meets hi, ?_, ?_⟩
  · intro hclears u hu ht
    exact not_clears_of_shareTop hopen hi hu ht hclears
  · exact clears_of_define hi

/-- An open batch in which something was removed before. A word, a variable whose type has no width
and one without bytes lie in the range from `0x1004` to `0x1010`; one starts right behind it and
one stands at the largest address. -/
def coveredWords : Analysis where
  declared := .ofList [
    ⟨0x1000, .raw 8, some "word", none⟩,
    ⟨0x1008, .named "Unknown", some "unsized", none⟩,
    ⟨0x100A, .raw 0, some "empty", none⟩,
    ⟨0x1010, .char, some "behind", none⟩,
    ⟨Word.top, .char, some "last", none⟩]
  batch := some [.variableRemoved ⟨0x1004, .char, none, none⟩]

theorem clears_coveredWords :
    coveredWords.batch.isSome ∧ (TypeTable.width? coveredWords.types (.text 12)).isSome ∧
      ∃ i, coveredWords.define 0x1004 (.text 12) none = .ok i ∧
        coveredWords.Clears i ⟨0x1004, .text 12, none, none⟩ := by
  have hsized : (TypeTable.width? coveredWords.types (.text 12)).isSome := by decide
  have hopen : coveredWords.batch.isSome := rfl
  obtain ⟨i, hi, -, -, hclears⟩ := define_clears 0x1004 none hopen hsized
  exact ⟨hopen, hsized, i, hi, hclears.mpr (by decide +kernel)⟩

/-- A batch that was just opened, with a variable at the largest address. -/
def lastVariable : Analysis where
  declared := .ofList [⟨Word.top, .char, some "last", none⟩]
  batch := some []

/-- Replacing the variable at the largest address is not recorded, and taking the batch back loses
it; a declaration that reaches over that address from below leaves it where it is. -/
theorem not_clears_lastVariable :
    (∃ i j, lastVariable.define Word.top (.raw 1) none = .ok i ∧
      ¬ lastVariable.Clears i ⟨Word.top, .raw 1, none, none⟩ ∧
      i.revert = .ok j ∧ j.declared.keys = []) ∧
    ∃ i, lastVariable.define 0xFFFFFFFFFFFFFFFC (.raw 4) none = .ok i ∧
      ¬ lastVariable.Clears i ⟨0xFFFFFFFFFFFFFFFC, .raw 4, none, none⟩ ∧
      i.declared.keys = [0xFFFFFFFFFFFFFFFC, Word.top] := by
  have hmem : ⟨Word.top, .char, some "last", none⟩ ∈ lastVariable.declared.values :=
    List.mem_singleton.mpr rfl
  refine ⟨⟨_, _, rfl, ?_, rfl, rfl⟩, _, rfl, ?_, rfl⟩
  · exact not_clears_of_shareTop rfl rfl hmem (by decide +kernel)
  · exact not_clears_of_shareTop rfl rfl hmem (by decide +kernel)

end Analysis
end SliceRecovery
