import SliceRecovery.Recovery.Candidate

/-!
# SliceRecovery.Proofs.Scanning -- which variables become candidates

What a scan lists is said without the working set: a pointer is a candidate when the address it
stores lies in a segment that can be read and neither written nor executed, or in a section tagged
as read-only data. However many regions cover that address, the pointer is listed once, and the
list is by ascending address because the table of variables is.
-/

namespace SliceRecovery

variable {h : Analysis} {v : Variable} {a : Address} {w : UInt64}

/-! ## Reported variables -/

namespace Analysis

/-- A reported variable is a declared one but for its value. -/
theorem withValue_eq (h : Analysis) (v : Variable) :
    h.withValue v = { v with value := (h.withValue v).value } := by
  unfold withValue
  split
  · split
    · rfl
    · rfl
  · rfl

theorem address_withValue (h : Analysis) (v : Variable) : (h.withValue v).address = v.address := by
  rw [withValue_eq]

theorem variableAt?_of_mem (hv : v ∈ h.reportedVariables) : h.variableAt? v.address = some v := by
  unfold reportedVariables at hv
  obtain ⟨u, hu, rfl⟩ := List.mem_map.mp hv
  rw [VariableTable.mem_values_iff] at hu
  unfold variableAt?
  rw [address_withValue, hu]
  rfl

theorem isSome_of_mem (hv : v ∈ h.reportedVariables) : (h.declared.get? v.address).isSome := by
  have hv := variableAt?_of_mem hv
  unfold variableAt? at hv
  rw [← Option.isSome_map (f := h.withValue), hv]
  rfl

theorem ascending_reportedVariables (h : Analysis) :
    h.reportedVariables.Pairwise fun u v => u.address < v.address := by
  unfold reportedVariables
  rw [List.pairwise_map]
  refine h.declared.ascending_values.imp ?_
  intro u v huv
  rw [address_withValue, address_withValue]
  exact huv

/-! ## Read-only memory -/

/-- An address lies in read-only memory. -/
def ReadOnlyAt (h : Analysis) (a : Address) : Prop :=
  (∃ s ∈ h.segments, s.region.readable = true ∧ s.region.writable = false ∧
    s.region.executable = false ∧ s.region.contains a = true) ∨
  ∃ r ∈ h.sections, r.use = some .readOnlyData ∧ r.contains a = true

instance (h : Analysis) : DecidablePred h.ReadOnlyAt := fun a =>
  inferInstanceAs (Decidable (
    (∃ s ∈ h.segments, s.region.readable = true ∧ s.region.writable = false ∧
      s.region.executable = false ∧ s.region.contains a = true) ∨
    ∃ r ∈ h.sections, r.use = some .readOnlyData ∧ r.contains a = true))

/-- The working set covers just the read-only memory. -/
theorem contains_workingSet_iff :
    (WorkingSet.ofRegions h.segmentRegions h.sections).contains a = true ↔ h.ReadOnlyAt a := by
  unfold WorkingSet.contains WorkingSet.ofRegions ReadOnlyAt segmentRegions
  rw [List.any_append, Bool.or_eq_true, List.any_filter, List.any_filter, List.any_map,
    List.any_eq_true, List.any_eq_true]
  simp only [Function.comp, Region.isReadOnlySegment, Region.isReadOnlyData, Bool.and_eq_true,
    Bool.not_eq_true', decide_eq_true_eq, and_assoc]

/-- The reported pointers into read-only memory, by ascending address. -/
def readOnlyPointers (h : Analysis) : List Variable :=
  h.reportedVariables.filter fun v => v.type.kind = .pointer ∧ ∃ a ∈ v.value, h.ReadOnlyAt a

theorem mem_readOnlyPointers :
    v ∈ h.readOnlyPointers ↔
      v ∈ h.reportedVariables ∧ v.type.kind = .pointer ∧ ∃ a ∈ v.value, h.ReadOnlyAt a := by
  unfold readOnlyPointers
  rw [List.mem_filter, decide_eq_true_iff]

theorem ascending_readOnlyPointers (h : Analysis) :
    (h.readOnlyPointers.map Variable.address).Pairwise (· < ·) := by
  rw [List.pairwise_map]
  exact h.ascending_reportedVariables.filter _

end Analysis

/-! ## Scans -/

theorem DataType.kind_eq_pointer_iff {t : DataType} :
    t.kind = .pointer ↔ ∃ width target, t = .pointer width target := by
  cases t <;> simp [kind]

namespace PointerCandidate

variable {set : WorkingSet} {c : PointerCandidate}

/-- The candidate of a variable keeps its address, what it points at, and its own width or else
the default one. -/
theorem ofVariable?_eq_some_iff :
    ofVariable? set w v = some c ↔
      ∃ width target, v.type = .pointer width target ∧ v.value = some c.pointee ∧
        set.contains c.pointee = true ∧ c.source = v.address ∧
        c.pointerWidth = if width = 0 then w else width := by
  obtain ⟨source, pointerWidth, pointee⟩ := c
  have hwidth : ∀ width : UInt64,
      (if width > 0 then width else w) = if width = 0 then w else width := by
    intro width
    by_cases hz : width = 0
    · subst hz
      rfl
    · rw [if_neg hz, if_pos (UInt64.pos_iff_ne_zero.mpr hz)]
  unfold ofVariable?
  split
  · rename_i width target p ht hp
    rw [ht, hp, hwidth]
    by_cases hc : set.contains p = true
    · rw [if_pos hc]
      constructor
      · rintro ⟨⟩
        exact ⟨width, target, rfl, rfl, hc, rfl, rfl⟩
      · rintro ⟨_, _, ⟨⟩, ⟨⟩, -, hs, hw⟩
        dsimp only at hs hw
        rw [hs, hw]
    · rw [if_neg hc]
      constructor
      · intro hn
        cases hn
      · rintro ⟨_, _, -, ⟨⟩, hcp, -⟩
        exact absurd hcp hc
  · rename_i hno
    constructor
    · intro hn
      cases hn
    · rintro ⟨width, target, ht, hp, -⟩
      exact absurd hp (hno width target pointee ht)

theorem exists_of_mem_scan (hc : c ∈ scan h set w) :
    ∃ v ∈ h.reportedVariables, ofVariable? set w v = some c :=
  List.mem_filterMap.mp hc

theorem isSome_source (hc : c ∈ scan h set w) : (h.declared.get? c.source).isSome := by
  obtain ⟨v, hv, hvc⟩ := exists_of_mem_scan hc
  obtain ⟨_, _, -, -, -, hs, -⟩ := ofVariable?_eq_some_iff.mp hvc
  rw [hs]
  exact Analysis.isSome_of_mem hv

/-- The candidates are the read-only pointers, one for each and in their order. -/
theorem sources_scan (h : Analysis) (w : UInt64) :
    (scan h (WorkingSet.ofRegions h.segmentRegions h.sections) w).map source =
      h.readOnlyPointers.map Variable.address := by
  unfold scan Analysis.readOnlyPointers
  rw [← List.filterMap_eq_filter, List.map_filterMap, List.map_filterMap]
  congr 1
  funext v
  rw [Option.map_guard]
  by_cases hv : v.type.kind = .pointer ∧ ∃ a ∈ v.value, h.ReadOnlyAt a
  · rw [if_pos (decide_eq_true hv)]
    obtain ⟨hk, a, ha, hro⟩ := hv
    obtain ⟨width, target, ht⟩ := DataType.kind_eq_pointer_iff.mp hk
    have hc : ofVariable? (WorkingSet.ofRegions h.segmentRegions h.sections) w v =
        some ⟨v.address, if width = 0 then w else width, a⟩ :=
      ofVariable?_eq_some_iff.mpr
        ⟨width, target, ht, ha, Analysis.contains_workingSet_iff.mpr hro, rfl, rfl⟩
    rw [hc]
    rfl
  · rw [if_neg (fun h => hv (of_decide_eq_true h))]
    cases hc : ofVariable? (WorkingSet.ofRegions h.segmentRegions h.sections) w v with
    | none => rfl
    | some c =>
      obtain ⟨width, target, ht, ha, hro, -⟩ := ofVariable?_eq_some_iff.mp hc
      exact absurd ⟨DataType.kind_eq_pointer_iff.mpr ⟨width, target, ht⟩, c.pointee, ha,
        Analysis.contains_workingSet_iff.mp hro⟩ hv

end PointerCandidate
end SliceRecovery
