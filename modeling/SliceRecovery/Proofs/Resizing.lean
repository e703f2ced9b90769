import SliceRecovery.Proofs.CodeRun
import SliceRecovery.Proofs.Scanning

/-!
# SliceRecovery.Proofs.Resizing -- what becomes of the arrays that a code run resizes

A code run lists its arrays once and then declares them anew one after the other, by ascending
address. A declaration removes what it overlaps, so an array that has grown loses the arrays within
its new range; but those are still on the list, and the first of them that is given a length is put
back and removes the grown one in turn. An array therefore stands at the end just when no resized
array starts within its new range, and then it is one of characters, whatever its elements were.
-/

namespace SliceRecovery

/-! ## Declarations by ascending address -/

namespace Variable

variable {types : TypeTable} {t t' : VariableTable} {ps : List Variable} {u v w : Variable}

/-- Of two variables the lower one overlaps the other by reaching its address. -/
theorem overlap_iff_of_lt (hlt : v.address < w.address) :
    v.Overlap types w ↔ w.address < Word.addCapped v.address (Analysis.extent types v) := by
  constructor
  · rintro ⟨a, ⟨-, hav⟩, hwa, -⟩
    exact UInt64.lt_of_le_of_lt hwa hav
  · intro hreach
    -- no range goes beyond the largest address, so `w` is below it and covers its own address
    have htop : w.address < Word.top := by
      have hle := UInt64.lt_iff_toNat_lt.mp hreach
      rw [Word.toNat_addCapped] at hle
      rw [Word.lt_top_iff]
      omega
    exact ⟨w.address, ⟨UInt64.le_of_lt hlt, hreach⟩, UInt64.le_refl _, Analysis.lt_end types htop⟩

/-- Variables at ascending addresses are told apart by their addresses. -/
theorem eq_of_ascending (hasc : ps.Pairwise fun p q => p.address < q.address) (hu : u ∈ ps)
    (hv : v ∈ ps) (h : u.address = v.address) : u = v := by
  obtain ⟨earlier, later, rfl⟩ := List.append_of_mem hv
  obtain ⟨-, hafter, hbefore⟩ := List.pairwise_append.mp hasc
  rcases List.mem_append.mp hu with hu | hu
  · have hlt := hbefore u hu v List.mem_cons_self
    rw [h] at hlt
    exact absurd hlt (UInt64.lt_irrefl _)
  · rcases List.mem_cons.mp hu with rfl | hu
    · rfl
    · have hlt := (List.pairwise_cons.mp hafter).1 u hu
      rw [h] at hlt
      exact absurd hlt (UInt64.lt_irrefl _)

/-- Of declarations at ascending addresses one lasts if it overlaps none at a greater address. -/
theorem lasts_iff_of_ascending (hasc : ps.Pairwise fun p q => p.address < q.address) (hv : v ∈ ps) :
    v.Lasts types ps ↔ ∀ w ∈ ps, v.address < w.address → ¬ v.Overlap types w := by
  constructor
  · rintro ⟨earlier, later, rfl, hl⟩ w hw hlt ho
    obtain ⟨-, -, hbefore⟩ := List.pairwise_append.mp hasc
    -- at a greater address `w` can only come after `v`
    rcases List.mem_append.mp hw with hw | hw
    · have hgt := hbefore w hw v List.mem_cons_self
      exact UInt64.lt_irrefl _ (UInt64.lt_trans hlt hgt)
    · rcases List.mem_cons.mp hw with rfl | hw
      · exact UInt64.lt_irrefl _ hlt
      · exact hl w hw (Or.inr ho)
  · intro hno
    obtain ⟨earlier, later, rfl⟩ := List.append_of_mem hv
    obtain ⟨-, hafter, -⟩ := List.pairwise_append.mp hasc
    refine ⟨earlier, later, rfl, fun w hw hc => ?_⟩
    have hlt := (List.pairwise_cons.mp hafter).1 w hw
    rcases hc with heq | ho
    · rw [heq] at hlt
      exact UInt64.lt_irrefl _ hlt
    · exact hno w (List.mem_append_right _ (List.mem_cons_of_mem _ hw)) hlt ho

/-- After declarations at ascending addresses one of them stands at its address if it lasts. -/
theorem get?_of_lasts (hst : ∀ u, u ∈ t'.values ↔ u.Stands types t ps) (hl : v.Lasts types ps) :
    t'.get? v.address = some v :=
  VariableTable.mem_values_iff.mp ((hst v).mpr (Or.inl hl))

/-- After declarations at ascending addresses nothing stands at the address of one that does not
last. -/
theorem get?_of_not_lasts (hasc : ps.Pairwise fun p q => p.address < q.address)
    (hst : ∀ u, u ∈ t'.values ↔ u.Stands types t ps) (hv : v ∈ ps) (hl : ¬ v.Lasts types ps) :
    t'.get? v.address = none := by
  cases hu : t'.get? v.address with
  | none => rfl
  | some u =>
    have haddr := VariableTable.address_of_get? hu
    rw [← haddr] at hu
    rcases (hst u).mp (VariableTable.mem_values_iff.mpr hu) with hlu | ⟨-, hno⟩
    · -- another declaration at the address of `v` would be `v` itself
      have hmem : u ∈ ps := by
        obtain ⟨earlier, later, rfl, -⟩ := hlu
        exact List.mem_append_right _ List.mem_cons_self
      rw [eq_of_ascending hasc hmem hv haddr] at hlu
      exact absurd hlu hl
    · exact absurd (Or.inl haddr) (hno v hv)

end Variable

/-! ## The declarations of a code run -/

theorem Analysis.pos_of_lengthFromReference {h : Analysis} {r : CodeReference} {n : UInt64}
    (hn : h.lengthFromReference? r = some n) : 0 < n := by
  unfold lengthFromReference? at hn
  split at hn
  · cases hn
  · split at hn
    · cases hn
    · split at hn
      · cases hn
      · split at hn
        · cases hn
        · split at hn
          · cases hn
            assumption
          · cases hn

theorem Analysis.pos_of_suggestion {h : Analysis} {a : Address} {r : CodeReference} {n : UInt64}
    (hs : h.suggestion? a = some (r, n)) : 0 < n := by
  unfold suggestion? at hs
  obtain ⟨s, -, hs⟩ := List.exists_of_findSome?_eq_some hs
  obtain ⟨m, hm, heq⟩ := Option.map_eq_some_iff.mp hs
  cases heq
  exact pos_of_lengthFromReference hm

/-- A resized array ends where its characters do. -/
theorem Analysis.extent_text {types : TypeTable} {a : Address} {n : UInt64} {name : Option String}
    (hn : 0 < n) : extent types ⟨a, .text n, name, none⟩ = n := by
  unfold extent
  rw [width?_text]
  exact if_neg (UInt64.ne_of_lt hn).symm

namespace ArrayResize

/-- An address lies behind the first one in the range of a resized array. -/
def Reaches (r : ArrayResize) (a : Address) : Prop :=
  r.address < a ∧ a < Word.addCapped r.address r.length

instance (r : ArrayResize) : DecidablePred r.Reaches := fun a =>
  inferInstanceAs (Decidable (r.address < a ∧ a < Word.addCapped r.address r.length))

/-- No array of a list starts behind the first address in the range of a resized one. -/
def Survives (r : ArrayResize) (rs : List ArrayResize) : Prop := ∀ s ∈ rs, ¬ r.Reaches s.address

instance (r : ArrayResize) : DecidablePred r.Survives := fun rs =>
  inferInstanceAs (Decidable (∀ s ∈ rs, ¬ r.Reaches s.address))

end ArrayResize

namespace CodeRun

/-- The variable that a new length of an array is declared as. -/
def Visit.declare (v : Visit) (r : ArrayResize) : Variable :=
  ⟨v.array.address, .text r.length, v.array.name, none⟩

/-- What visits declare, in order. -/
def declarations (vs : List Visit) : List Variable :=
  vs.filterMap fun v => v.resize.map v.declare

variable {h i : Analysis} {vs : List Visit} {v w : Visit} {r s : ArrayResize}

/-- Visits to the first arrays of an analysis are by ascending address. -/
theorem ascending_visits {rest : List Variable} (hcs : candidates h = vs.map Visit.array ++ rest) :
    vs.Pairwise fun v w => v.array.address < w.array.address := by
  have hall : (candidates h).Pairwise fun u v => u.address < v.address :=
    h.ascending_reportedVariables.filter _
  rw [hcs] at hall
  have hfirst := (List.pairwise_append.mp hall).1
  rwa [List.pairwise_map] at hfirst

theorem mem_declarations {u : Variable} :
    u ∈ declarations vs ↔ ∃ v ∈ vs, ∃ r, v.resize = some r ∧ v.declare r = u := by
  unfold declarations
  rw [List.mem_filterMap]
  simp only [Option.map_eq_some_iff]

/-- The declarations are at ascending addresses if the arrays are. -/
theorem ascending_declarations
    (hasc : vs.Pairwise fun v w => v.array.address < w.array.address) :
    (declarations vs).Pairwise fun p q => p.address < q.address := by
  unfold declarations
  rw [List.pairwise_filterMap]
  refine hasc.imp fun hlt p hp q hq => ?_
  obtain ⟨_, -, rfl⟩ := Option.map_eq_some_iff.mp hp
  obtain ⟨_, -, rfl⟩ := Option.map_eq_some_iff.mp hq
  exact hlt

namespace Trace

/-- A new length is not zero, and says at which array it was given. -/
theorem resize_eq (ht : Trace h vs i) (hv : v ∈ vs) (hr : v.resize = some r) :
    r.address = v.array.address ∧ r.previousLength = v.array.type.arrayLength? ∧ 0 < r.length := by
  induction ht with
  | nil => cases hv
  | keep _ _ ih =>
    rcases List.mem_cons.mp hv with rfl | hv
    · cases hr
    · exact ih hv
  | resize hs _ _ ih =>
    rcases List.mem_cons.mp hv with rfl | hv
    · cases hr
      exact ⟨rfl, rfl, Analysis.pos_of_suggestion hs⟩
    · exact ih hv

/-- The variables at the end are those that stand after the declarations of all visits. -/
theorem stands (ht : Trace h vs i) (u : Variable) :
    u ∈ i.declared.values ↔ u.Stands h.types h.declared (declarations vs) := by
  induction ht with
  | nil => exact Variable.stands_nil.symm
  | keep _ _ ih => exact ih
  | resize _ hd _ ih =>
    rw [ih, Analysis.types_define hd]
    exact (Variable.stands_append (Analysis.stands_define hd)).symm

/-- A declared array overlaps a later one just when it reaches the address of that. -/
theorem overlap_declare_iff (ht : Trace h vs i) (hv : v ∈ vs) (hr : v.resize = some r)
    (hw : w ∈ vs) (hs : w.resize = some s) :
    (v.declare r).address < (w.declare s).address ∧
      (v.declare r).Overlap h.types (w.declare s) ↔ r.Reaches s.address := by
  obtain ⟨hra, -, hpos⟩ := ht.resize_eq hv hr
  obtain ⟨hsa, -, -⟩ := ht.resize_eq hw hs
  unfold ArrayResize.Reaches
  rw [hra, hsa]
  refine and_congr_right fun hlt => ?_
  rw [Variable.overlap_iff_of_lt hlt]
  unfold Visit.declare
  rw [Analysis.extent_text hpos]

/-- A declared array lasts just when no resized one starts within its range. -/
theorem lasts_declare_iff (ht : Trace h vs i)
    (hasc : vs.Pairwise fun v w => v.array.address < w.array.address)
    (hv : v ∈ vs) (hr : v.resize = some r) :
    (v.declare r).Lasts h.types (declarations vs) ↔ r.Survives (resizes vs) := by
  have hmem : v.declare r ∈ declarations vs := mem_declarations.mpr ⟨v, hv, r, hr, rfl⟩
  rw [Variable.lasts_iff_of_ascending (ascending_declarations hasc) hmem]
  constructor
  · intro hno s hs hreach
    obtain ⟨w, hw, hws⟩ := List.mem_filterMap.mp hs
    obtain ⟨hlt, ho⟩ := (ht.overlap_declare_iff hv hr hw hws).mpr hreach
    exact hno _ (mem_declarations.mpr ⟨w, hw, s, hws, rfl⟩) hlt ho
  · intro hno u hu hlt ho
    obtain ⟨w, hw, s, hws, rfl⟩ := mem_declarations.mp hu
    have hs : s ∈ resizes vs := List.mem_filterMap.mpr ⟨w, hw, hws⟩
    exact hno s hs ((ht.overlap_declare_iff hv hr hw hws).mp ⟨hlt, ho⟩)

/-- What stands at the address of a resized array at the end of a trace: the array, unless another
resized one starts within its range. -/
theorem get?_resized (ht : Trace h vs i)
    (hasc : vs.Pairwise fun v w => v.array.address < w.array.address)
    (hv : v ∈ vs) (hr : v.resize = some r) :
    i.declared.get? r.address =
      if r.Survives (resizes vs) then some ⟨r.address, .text r.length, v.array.name, none⟩
      else none := by
  have hmem : v.declare r ∈ declarations vs := mem_declarations.mpr ⟨v, hv, r, hr, rfl⟩
  have hlasts := ht.lasts_declare_iff hasc hv hr
  rw [(ht.resize_eq hv hr).1]
  by_cases hs : r.Survives (resizes vs)
  · rw [if_pos hs]
    exact Variable.get?_of_lasts ht.stands (hlasts.mpr hs)
  · rw [if_neg hs]
    have hnone : i.declared.get? (v.declare r).address = none :=
      Variable.get?_of_not_lasts (ascending_declarations hasc) ht.stands hmem
        fun hl => hs (hlasts.mp hl)
    exact hnone

end Trace
end CodeRun

/-! ## Resized arrays -/

variable {config : RecoveryConfig} {cancellation : Cancellation} {h : Analysis}
  {result : RunResult}

theorem DataType.isByteArray_iff {t : DataType} :
    t.isByteArray = true ↔ ∃ element count, t = .array element count ∧ element.width? = some 1 := by
  cases t <;> simp [isByteArray]

/-- What a code run goes through are reported arrays of one-byte elements. -/
theorem CodeRun.array_of_mem_candidates {v : Variable} (hv : v ∈ candidates h) :
    h.variableAt? v.address = some v ∧
      ∃ element count, v.type = .array element count ∧ element.width? = some 1 := by
  obtain ⟨hreported, hkind⟩ := List.mem_filter.mp hv
  obtain ⟨hbytes, -⟩ := Bool.and_eq_true_iff.mp hkind
  exact ⟨Analysis.variableAt?_of_mem hreported, DataType.isByteArray_iff.mp hbytes⟩

/-- Arrays are reported as they are declared. -/
theorem Analysis.variableAt?_of_text {a : Address} {n : UInt64} {name : Option String}
    (ha : h.declared.get? a = some ⟨a, .text n, name, none⟩) :
    h.variableAt? a = some ⟨a, .text n, name, none⟩ := by
  unfold variableAt?
  rw [ha]
  rfl

/-- What a run that resized several arrays did to one of them. -/
structure ArrayResize.Outcome (before after : Analysis) (rs : List ArrayResize) (r : ArrayResize)
    (v : Variable) (element : DataType) (count : UInt64) : Prop where
  reported : before.variableAt? r.address = some v
  type_eq : v.type = .array element count
  width_eq : element.width? = some 1
  previous_eq : r.previousLength = some count
  /-- The array has its name and the new length, and its elements have one byte each; an array of
  characters stays one. -/
  stays : r.Survives rs → ∃ w element', after.variableAt? r.address = some w ∧
    w.type = .array element' r.length ∧ w.name = v.name ∧ element'.width? = some 1 ∧
    (element = .char → element' = .char)
  goes : ¬ r.Survives rs → after.variableAt? r.address = none

/-- **What becomes of resized arrays.** Whatever the analysis, the settings and the cancellation:
every array that a code run says it resized was an array of one-byte elements of the previous
length before. If no array that the run resized starts within its new range, it is an array of the
new length afterwards and has kept its name; else nothing stands at its address. -/
theorem code_run_resized (hr : (h.recover .code config cancellation).result = .ok result) :
    ∀ r ∈ result.resized, ∃ v element count,
      r.Outcome h (h.recover .code config cancellation).analysis result.resized v element count := by
  have hr : (CodeRun.run config cancellation h).result = .ok result := hr
  show ∀ r ∈ result.resized, ∃ v element count,
    r.Outcome h (CodeRun.run config cancellation h).analysis result.resized v element count
  intro r hmem
  obtain ⟨rfl, -⟩ | ⟨vs, rest, i, j, -, hcs, ht, hres, -, hj, hafter⟩ := CodeRun.run_eq_ok hr
  · cases hmem
  · have hresized : result.resized = CodeRun.resizes vs := by
      rw [hres]
    rw [hresized] at hmem ⊢
    obtain ⟨v, hv, hvr⟩ := List.mem_filterMap.mp hmem
    have hc : v.array ∈ CodeRun.candidates h := by
      rw [hcs]
      exact List.mem_append_left _ (List.mem_map_of_mem hv)
    obtain ⟨hreported, element, count, htype, hwidth⟩ := CodeRun.array_of_mem_candidates hc
    obtain ⟨haddr, hprev, -⟩ := ht.resize_eq hv hvr
    have hget := ht.get?_resized (CodeRun.ascending_visits hcs) hv hvr
    rw [← Analysis.declared_afterRun config hj, ← hafter] at hget
    refine ⟨v.array, element, count, ?_, htype, hwidth, ?_, fun hs => ?_, fun hs => ?_⟩
    · rw [haddr]
      exact hreported
    · rw [hprev, htype]
      rfl
    · rw [if_pos hs] at hget
      exact ⟨_, .char, Analysis.variableAt?_of_text hget, rfl, rfl, rfl, fun _ => rfl⟩
    · rw [if_neg hs] at hget
      unfold Analysis.variableAt?
      rw [hget]
      rfl

/-- A binary with three arrays. The first two touch and each is given a length that reaches over the
other; the third is one of unsigned bytes. -/
def crowdedArrays : Analysis where
  arch := some (.ofWordSize "x86_64" 8 .little)
  segments := [⟨{ start := 0x1000, stop := 0x1100, readable := true }, []⟩]
  declared := .ofList [
    ⟨0x1000, .text 4, some "first", none⟩,
    ⟨0x1004, .text 4, some "second", none⟩,
    ⟨0x1020, .array (.unsigned 1) 4, some "third", none⟩]
  references := [⟨0x4000, 0x1000⟩, ⟨0x4000, 0x1004⟩, ⟨0x4000, 0x1020⟩]
  blocks := [⟨0x4000, [⟨0, 0x4000, .setVariable, []⟩,
    ⟨1, 0x4004, .setField, [⟨.constant, none, some 8⟩]⟩]⟩]

theorem resized_crowdedArrays :
    ∃ result, (crowdedArrays.recover .code {} none).result = .ok result ∧
      result.resized.map ArrayResize.address = [0x1000, 0x1004, 0x1020] ∧
      ∀ r ∈ result.resized, ∃ v element count,
        r.Outcome crowdedArrays (crowdedArrays.recover .code {} none).analysis result.resized
          v element count := by
  obtain ⟨result, hr, haddresses⟩ :
      ∃ result, (crowdedArrays.recover .code {} none).result = .ok result ∧
        result.resized.map ArrayResize.address = [0x1000, 0x1004, 0x1020] :=
    ⟨_, rfl, rfl⟩
  exact ⟨result, hr, haddresses, code_run_resized hr⟩

/-- An array has the length that was reported and is else as it was. -/
def ArrayResize.Kept (before after : Analysis) (r : ArrayResize) : Prop :=
  ∃ v w element count, before.variableAt? r.address = some v ∧ v.type = .array element count ∧
    after.variableAt? r.address = some w ∧ w.type = .array element r.length ∧ w.name = v.name

/-- A resized array need not be there at the end, and one that is there need not have kept the type
of its elements. -/
theorem not_kept_crowdedArrays :
    ∃ result gone changed, (crowdedArrays.recover .code {} none).result = .ok result ∧
      gone ∈ result.resized ∧ changed ∈ result.resized ∧
      (crowdedArrays.recover .code {} none).analysis.variableAt? gone.address = none ∧
      changed.Survives result.resized ∧
      ¬ gone.Kept crowdedArrays (crowdedArrays.recover .code {} none).analysis ∧
      ¬ changed.Kept crowdedArrays (crowdedArrays.recover .code {} none).analysis := by
  refine ⟨_, ⟨0x1000, 0x4000, some 4, 8⟩, ⟨0x1020, 0x4000, some 4, 8⟩, rfl, List.mem_cons_self,
    ?_, rfl, by decide, ?_, ?_⟩
  · exact List.mem_cons_of_mem _ (List.mem_cons_of_mem _ List.mem_cons_self)
  · -- the second array was put back after the first had grown over it
    rintro ⟨v, w, element, count, -, -, hw, -, -⟩
    exact nomatch hw
  · -- the unsigned bytes of the third have become characters
    rintro ⟨v, w, element, count, hv, hvt, hw, hwt, -⟩
    cases hv
    cases hw
    cases hvt
    cases hwt

end SliceRecovery
