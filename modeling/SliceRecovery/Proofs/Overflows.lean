import SliceRecovery.Proofs.Layout
import SliceRecovery.Proofs.Opening
import SliceRecovery.Recovery.Overflow

/-!
# SliceRecovery.Proofs.Overflows -- which runs return

A run declares characters and instances of the slice type, and neither they nor the definition of the
slice type can make another type overflow that did not. So all that can stop a run is there before it:
a declared variable or the slice type, in the table that has the slice type. Which of them is measured
depends on the addresses that are declared; where none of them overflows, every run returns. A run
that does not return has opened its batch, whatever was found cancelled or missing before.
-/

namespace SliceRecovery

/-- What does not overflow in a larger table does not overflow. -/
theorem TypeTable.width_ne_overflow_of_within {types types' : TypeTable} {t : DataType}
    (hwithin : Within types types') (ht : width types' t ≠ .overflow) : width types t ≠ .overflow := by
  intro ho
  rw [width_of_within hwithin (by simp [ho])] at ht
  exact ht ho

/-- A cancelled run is found cancelled at its next checkpoint, so one that goes on is not yet. -/
theorem Watch.lt_of_not_stops {w : Watch} (hw : w.stops = false) (n : Nat)
    (hn : w.cancellation = some n) : w.passed.length < n := by
  refine Nat.lt_of_not_le fun hle => ?_
  rw [stops_of_le hn hle] at hw
  cases hw

/-- Without regions no pointer is a candidate. -/
theorem PointerCandidate.scan_eq_nil {h : Analysis} {set : WorkingSet} {w : UInt64}
    (hset : set.isEmpty = true) : scan h set w = [] := by
  have hnone : ∀ a, set.contains a = false := by
    intro a
    rw [WorkingSet.contains, List.isEmpty_iff.mp hset]
    rfl
  refine List.filterMap_eq_nil_iff.mpr fun v _ => ?_
  unfold ofVariable?
  split
  · rw [hnone, if_neg Bool.false_ne_true]
  · rfl

namespace Analysis

variable {h i : Analysis} {config : RecoveryConfig} {arch : Architecture} {r : SliceRecord}
  {a : Address} {type : DataType} {name : Option String}

/-- No type that a run may measure overflows once the slice type is defined: neither that of a
declared variable nor the slice type itself. -/
structure Measurable (config : RecoveryConfig) (arch : Architecture) (h : Analysis) : Prop where
  slice : TypeTable.width (h.ensureSliceType config arch).2.types (.named config.sliceTypeName) ≠
    .overflow
  declared : ∀ v ∈ h.declared.values,
    TypeTable.width (h.ensureSliceType config arch).2.types v.type ≠ .overflow

theorem arch_of_workingSet {set : WorkingSet} (hset : h.workingSet = .ok set) :
    ∃ arch, h.arch = some arch := by
  unfold workingSet at hset
  split at hset
  · cases hset
  · exact ⟨_, ‹_›⟩

theorem width_text_ne_overflow (types : TypeTable) (n : UInt64) :
    TypeTable.width types (.text n) ≠ .overflow := by
  rw [TypeTable.width?_eq_some_iff.mp (width?_text types n)]
  simp

/-! ## Declarations -/

theorem types_ensureSliceType_congr (ht : i.types = h.types) :
    (i.ensureSliceType config arch).2.types = (h.ensureSliceType config arch).2.types := by
  rw [types_ensureSliceType, types_ensureSliceType, hasType, hasType, ht]

/-- Variables may be removed, and added if they do not overflow. -/
theorem Measurable.mono (hm : h.Measurable config arch)
    (ht : (i.ensureSliceType config arch).2.types = (h.ensureSliceType config arch).2.types)
    (hnew : ∀ v ∈ i.declared.values, v ∈ h.declared.values ∨
      TypeTable.width (h.ensureSliceType config arch).2.types v.type ≠ .overflow) :
    i.Measurable config arch := by
  refine ⟨?_, ?_⟩
  · rw [ht]
    exact hm.slice
  · intro v hv
    rw [ht]
    rcases hnew v hv with hold | hne
    · exact hm.declared v hold
    · exact hne

theorem Measurable.evict (hm : h.Measurable config arch) (a : Address) :
    (h.evict a).Measurable config arch :=
  hm.mono (types_ensureSliceType_congr (types_evict h a)) fun _ hv => Or.inl (mem_evict.mp hv).1

theorem Measurable.define (hm : h.Measurable config arch) (hi : h.define a type name = .ok i)
    (ht : TypeTable.width (h.ensureSliceType config arch).2.types type ≠ .overflow) :
    i.Measurable config arch := by
  refine hm.mono (types_ensureSliceType_congr (types_define hi)) fun v hv => ?_
  rcases (mem_define hi).mp hv with rfl | ⟨hold, -⟩
  · exact Or.inr ht
  · exact Or.inl hold

/-- Once the slice type is defined, it stays as it is. -/
theorem Measurable.ensureSliceType (hm : h.Measurable config arch) :
    (h.ensureSliceType config arch).2.Measurable config arch := by
  refine hm.mono ?_ fun v hv => Or.inl ?_
  · rw [ensureSliceType_of_hasType hasType_ensureSliceType]
  · rwa [declared_ensureSliceType] at hv

/-- A declaration measures what is declared and what is there already. -/
theorem Measurable.defineOverflows_eq_false (hm : h.Measurable config arch)
    (ht : TypeTable.width (h.ensureSliceType config arch).2.types type ≠ .overflow) :
    h.defineOverflows a type = false := by
  have hsmall : ∀ {t}, TypeTable.width (h.ensureSliceType config arch).2.types t ≠ .overflow →
      TypeTable.width h.types t ≠ .overflow :=
    TypeTable.width_ne_overflow_of_within within_ensureSliceType
  unfold defineOverflows
  split
  · rfl
  · rename_i ho
    exact absurd ho (hsmall ht)
  · rw [List.any_eq_false]
    intro v hv
    rw [decide_eq_false (hsmall (hm.declared v hv)), Bool.and_false]
    exact Bool.false_ne_true

theorem Measurable.define?_eq_some (hm : h.Measurable config arch)
    (ht : TypeTable.width (h.ensureSliceType config arch).2.types type ≠ .overflow) :
    h.define? a type name = some (h.define a type name) := by
  rw [define?, hm.defineOverflows_eq_false ht, if_neg Bool.false_ne_true]

/-! ## Slices -/

/-- What starts at the bytes is removed before anything is measured. -/
theorem markOverflows_eq :
    h.markOverflows config r =
      ((h.evict r.dataAddress).defineOverflows r.dataAddress (.text r.length) ||
        match (h.evict r.dataAddress).define r.dataAddress (.text r.length) none with
        | .error _ => false
        | .ok marked => marked.defineOverflows r.pointerAddress (.named config.sliceTypeName)) := by
  unfold markOverflows
  rcases undefine_cases h r.dataAddress with hu | ⟨⟨e, hu⟩, hsame⟩
  · rewrite [hu]
    rfl
  · rewrite [hu, hsame]
    rfl

theorem Measurable.markOverflows_eq_false (hm : h.Measurable config arch) :
    h.markOverflows config r = false := by
  rw [markOverflows_eq, (hm.evict _).defineOverflows_eq_false (width_text_ne_overflow _ _),
    Bool.false_or]
  split
  · rfl
  · rename_i marked hmarked
    have hmarked := (hm.evict _).define hmarked (width_text_ne_overflow _ _)
    exact hmarked.defineOverflows_eq_false hmarked.slice

theorem Measurable.markSlice?_eq_some (hm : h.Measurable config arch) :
    h.markSlice? config r = some (h.markSlice config r) := by
  rw [markSlice?, hm.markOverflows_eq_false, if_neg Bool.false_ne_true]

theorem Measurable.mark (hm : h.Measurable config arch) (hi : h.mark config arch r = .ok i) :
    i.Measurable config arch := by
  obtain ⟨m, hbytes, hpair⟩ := markSlice_eq_ok_iff.mp hi
  have hbytes := (hm.ensureSliceType.evict _).define hbytes (width_text_ne_overflow _ _)
  exact hbytes.define hpair hbytes.slice

end Analysis

/-! ## Data runs -/

namespace DataRun

variable {h i : Analysis} {config : RecoveryConfig} {arch : Architecture} {c : PointerCandidate}
  {cs : List PointerCandidate} {vs : List Verdict} {s : RunState} {total done : Nat}
  {cancellation : Cancellation}

theorem Trace.measurable (ht : Trace config arch h vs i) (hm : h.Measurable config arch) :
    i.Measurable config arch := by
  induction ht with
  | nil => exact hm
  | reject _ _ ih => exact ih hm
  | accept _ hmark _ ih => exact ih (hm.mark hmark)

theorem examineOverflows_eq_false (hm : s.analysis.Measurable config arch) :
    examineOverflows config arch c s = false := by
  unfold examineOverflows
  split
  · rfl
  · unfold acceptOverflows
    dsimp only
    split
    · exact hm.ensureSliceType.markOverflows_eq_false
    · exact hm.markOverflows_eq_false

theorem loopOverflows_eq_false (hs : Ready config s) (hm : s.analysis.Measurable config arch) :
    loopOverflows config arch total done cs s = false := by
  induction cs generalizing done s with
  | nil => rfl
  | cons c cs ih =>
    unfold loopOverflows
    dsimp only
    split
    · rfl
    · have hpass : Ready config (s.pass .resolvingSlices done total) := hs
      have hmpass : (s.pass .resolvingSlices done total).analysis.Measurable config arch := hm
      rw [examineOverflows_eq_false hmpass, Bool.false_or]
      split
      · rfl
      · rename_i s1 he
        obtain ⟨v, -, ht, -⟩ := examine_eq_ok hpass he
        exact ih (ready_examine hpass he) (ht.measurable hm)

theorem overflows_eq_false (hm : ∀ arch, h.arch = some arch → h.Measurable config arch) :
    overflows config cancellation h = false := by
  unfold overflows
  split
  · rename_i arch opened harch hopened
    obtain ⟨-, rfl⟩ := Analysis.begin_eq_ok_iff.mp hopened
    have hopened : (h.withBatch (some [])).Measurable config arch :=
      (hm arch harch).mono (Analysis.types_ensureSliceType_congr rfl) fun _ => Or.inl
    exact loopOverflows_eq_false (fun hne => absurd rfl hne) hopened
  · rfl

/-- A loop that stops has a candidate to look at and is not cancelled there. -/
theorem of_loopOverflows (ho : loopOverflows config arch total done cs s = true) :
    cs ≠ [] ∧ ∀ n, s.watch.cancellation = some n → s.watch.passed.length < n := by
  cases cs with
  | nil => cases ho
  | cons c cs =>
    unfold loopOverflows at ho
    dsimp only at ho
    split at ho
    · cases ho
    · rename_i hgoes
      exact ⟨List.cons_ne_nil c cs, Watch.lt_of_not_stops (Bool.eq_false_iff.mpr hgoes)⟩

/-- A data run that stops at an overflow stops in its batch. -/
theorem run_eq_inBatch_of_overflows (ho : overflows config cancellation h = true) :
    ∃ arch watch, h.arch = some arch ∧ run config cancellation h =
      inBatch config arch (candidates h arch) ⟨h, { mode := .readOnlyData }, watch⟩ := by
  unfold overflows at ho
  split at ho
  · rename_i arch opened harch hopened
    obtain ⟨hcs, hw⟩ := of_loopOverflows ho
    have hset : (WorkingSet.ofRegions h.segmentRegions h.sections).isEmpty = false := by
      rw [Bool.eq_false_iff]
      exact fun hempty => hcs (PointerCandidate.scan_eq_nil hempty)
    have hc : ∀ n, cancellation = some n → 2 ≤ n := fun n hn => Nat.le_of_lt (hw n hn)
    exact ⟨arch, _, harch, run_eq_inBatch harch hset hc⟩
  · cases ho

end DataRun

/-! ## Code runs -/

namespace CodeRun

variable {h : Analysis} {config : RecoveryConfig} {arch : Architecture} {array : Variable}
  {rs : List CodeReference} {arrays : List Variable} {s s' : RunState} {total done : Nat}
  {cancellation : Cancellation}

theorem followOverflows_eq_false (hm : s.analysis.Measurable config arch) :
    followOverflows array done total rs s = false := by
  induction rs generalizing s with
  | nil => rfl
  | cons r rs ih =>
    unfold followOverflows
    dsimp only
    split
    · rfl
    · split
      · exact ih hm
      · exact hm.defineOverflows_eq_false (Analysis.width_text_ne_overflow _ _)

theorem measurable_follow (hm : s.analysis.Measurable config arch)
    (hf : follow array done total rs s = .next s') : s'.analysis.Measurable config arch := by
  rcases follow_eq_next hf with ⟨-, hsame, -⟩ | ⟨r, n, -, hd, -⟩
  · rwa [hsame]
  · exact hm.define hd (Analysis.width_text_ne_overflow _ _)

theorem loopOverflows_eq_false (hm : s.analysis.Measurable config arch) :
    loopOverflows total done arrays s = false := by
  induction arrays generalizing done s with
  | nil => rfl
  | cons array arrays ih =>
    unfold loopOverflows
    dsimp only
    split
    · rfl
    · have hcount : (s.pass .followingReferences done total).count.analysis.Measurable config arch :=
        hm
      rw [followOverflows_eq_false hcount, Bool.false_or]
      split
      · rename_i s1 hf
        exact ih (measurable_follow hcount hf)
      · rfl
      · rfl

/-- A loop that stops has an array to look at and is not cancelled there. -/
theorem of_loopOverflows (ho : loopOverflows total done arrays s = true) :
    ∀ n, s.watch.cancellation = some n → s.watch.passed.length < n := by
  cases arrays with
  | nil => cases ho
  | cons array arrays =>
    unfold loopOverflows at ho
    dsimp only at ho
    split at ho
    · cases ho
    · rename_i hgoes
      exact Watch.lt_of_not_stops (Bool.eq_false_iff.mpr hgoes)

/-- A code run that stops at an overflow stops in its batch. -/
theorem run_eq_inBatch_of_overflows (config : RecoveryConfig)
    (ho : overflows cancellation h = true) :
    ∃ watch, run config cancellation h =
      inBatch config (candidates h) ⟨h, { mode := .code }, watch⟩ := by
  unfold overflows at ho
  split at ho
  · rename_i set opened hset hopened
    obtain ⟨arch, harch⟩ := Analysis.arch_of_workingSet hset
    have hc : ∀ n, cancellation = some n → 2 ≤ n := fun n hn => Nat.le_of_lt (of_loopOverflows ho n hn)
    exact ⟨_, run_eq_inBatch harch hc⟩
  · cases ho

theorem overflows_eq_false (hm : ∀ arch, h.arch = some arch → h.Measurable config arch) :
    overflows cancellation h = false := by
  unfold overflows
  split
  · rename_i set opened hset hopened
    obtain ⟨-, rfl⟩ := Analysis.begin_eq_ok_iff.mp hopened
    obtain ⟨arch, harch⟩ := Analysis.arch_of_workingSet hset
    have hopened : (h.withBatch (some [])).Measurable config arch :=
      (hm arch harch).mono (Analysis.types_ensureSliceType_congr rfl) fun _ => Or.inl
    exact loopOverflows_eq_false hopened
  · rfl

end CodeRun

/-- **Runs return where nothing overflows.** Whatever the mode, the settings and the cancellation: a
run returns, with the outcome that is said of it elsewhere, if no type of a variable that is declared
before it overflows and the slice type does not, measured with the slice type defined. -/
theorem Analysis.recover?_eq_some {h : Analysis} {config : RecoveryConfig} (mode : RecoveryMode)
    (cancellation : Cancellation) (hm : ∀ arch, h.arch = some arch → h.Measurable config arch) :
    h.recover? mode config cancellation = some (h.recover mode config cancellation) := by
  have hreturns : h.recoverOverflows mode config cancellation = false := by
    cases mode with
    | readOnlyData => exact DataRun.overflows_eq_false hm
    | code => exact CodeRun.overflows_eq_false hm
  rw [recover?, hreturns, if_neg Bool.false_ne_true]

end SliceRecovery
