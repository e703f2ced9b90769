import SliceRecovery.Proofs.DataRun

/-!
# SliceRecovery.Proofs.FinalVariables -- the variables and types that a data run leaves

The declarations of a run are listed in order, two for each slice. A variable stands at the end if
it is one of them and none after it clashes with it, or if it stood before and clashes with none.
All ranges are measured by the types at the end: the slice type is the only one that a run defines,
and it is defined before the first declaration.
-/

namespace SliceRecovery

variable {config : RecoveryConfig} {cancellation : Cancellation} {h : Analysis}
  {result : RunResult}

/-- The declarations of a run, in order: for each slice its bytes and then its pair. -/
def RunResult.annotations (config : RecoveryConfig) (r : RunResult) : List Variable :=
  r.slices.flatMap (SliceRecord.annotations config)

/-- The types that a trace leaves, by whether a slice was accepted under a new name. -/
theorem DataRun.Trace.types_eq_ite {arch : Architecture} {i : Analysis} {vs : List Verdict}
    (ht : Trace config arch h vs i) :
    i.types =
      if slices vs ≠ [] ∧ h.hasType config.sliceTypeName = false then
        h.types.insert config.sliceTypeName arch.sliceType
      else h.types := by
  rw [ht.types_eq, Analysis.types_ensureSliceType]
  by_cases hs : slices vs = []
  · rw [if_pos hs, if_neg (fun hn => hn.1 hs)]
  · rw [if_neg hs]
    cases hh : h.hasType config.sliceTypeName with
    | true => rw [if_pos rfl, if_neg (by simp)]
    | false => rw [if_neg Bool.false_ne_true, if_pos ⟨hs, rfl⟩]

/-- **What a data run leaves.** The variables are the declarations of the run that no later one
clashes with and the variables of before that clash with none; the types gain the slice type if its
name was free and a slice was accepted, and only then does the result say so. -/
theorem data_run_variables (hr : (h.recover .readOnlyData config cancellation).result = .ok result) :
    ∃ arch, h.arch = some arch ∧
      (∀ v, v ∈ (h.recover .readOnlyData config cancellation).analysis.declared.values ↔
        v.Stands (h.recover .readOnlyData config cancellation).analysis.types h.declared
          (result.annotations config)) ∧
      (h.recover .readOnlyData config cancellation).analysis.types =
        (if result.slices ≠ [] ∧ h.hasType config.sliceTypeName = false then
          h.types.insert config.sliceTypeName arch.sliceType
        else h.types) ∧
      (result.sliceTypeCreated = true ↔
        result.slices ≠ [] ∧ h.hasType config.sliceTypeName = false) := by
  have hr : (DataRun.run config cancellation h).result = .ok result := hr
  show ∃ arch, h.arch = some arch ∧
    (∀ v, v ∈ (DataRun.run config cancellation h).analysis.declared.values ↔
      v.Stands (DataRun.run config cancellation h).analysis.types h.declared
        (result.annotations config)) ∧
    (DataRun.run config cancellation h).analysis.types = _ ∧ _
  obtain ⟨arch, harch, ⟨rfl, hsame⟩ | ⟨vs, rest, i, j, hb, hcs, ht, hres, -, hj, hafter⟩⟩ :=
    DataRun.run_eq_ok hr
  · rw [hsame]
    refine ⟨arch, harch, fun v => Variable.stands_nil.symm, ?_, ?_⟩
    · rw [if_neg (fun hn => hn.1 rfl)]
    · simp
  · have hslices : result.slices = DataRun.slices vs := by
      rw [hres]
      rfl
    have hcreated : result.sliceTypeCreated =
        if DataRun.slices vs ≠ [] then !h.hasType config.sliceTypeName else false := by
      rw [hres]
      simp [DataRun.tally]
    rw [hafter, Analysis.declared_afterRun config hj, Analysis.types_afterRun config hj,
      RunResult.annotations, hslices, hcreated]
    refine ⟨arch, harch, fun v => ht.stands v, ht.types_eq_ite, ?_⟩
    by_cases hs : DataRun.slices vs = []
    · simp [hs]
    · simp [hs]

/-- A binary with two strings, the second inside the first. The variable before the pointers is of
the slice type, which the run defines, and comes to reach into the first pair. -/
def sharedBytes : Analysis where
  arch := some (.ofWordSize "x86_64" 8 .little)
  segments := [
    ⟨{ start := 0x1000, stop := 0x1100, readable := true }, [104, 101, 108, 108, 111]⟩,
    ⟨{ start := 0x2000, stop := 0x2020, readable := true, writable := true },
      [0x00, 0x10, 0, 0, 0, 0, 0, 0, 5, 0, 0, 0, 0, 0, 0, 0,
       0x03, 0x10, 0, 0, 0, 0, 0, 0, 2, 0, 0, 0, 0, 0, 0, 0]⟩]
  declared := .ofList [
    ⟨0x1001, .raw 2, some "inside", none⟩,
    ⟨0x1FF8, .named "RustStringSlice", some "early", none⟩,
    ⟨0x2000, .pointerTo .char 8, none, none⟩,
    ⟨0x2010, .pointerTo .char 8, none, none⟩,
    ⟨0x3000, .raw 4, some "apart", none⟩]

theorem variables_sharedBytes :
    ∃ result, (sharedBytes.recover .readOnlyData {} none).result = .ok result ∧
      result.sliceTypeCreated = true ∧
      (result.annotations {}).map Variable.address = [0x1000, 0x2000, 0x1003, 0x2010] ∧
      (sharedBytes.recover .readOnlyData {} none).analysis.declared.keys =
        [0x1003, 0x2000, 0x2010, 0x3000] ∧
      ∀ v, v ∈ (sharedBytes.recover .readOnlyData {} none).analysis.declared.values ↔
        v.Stands (sharedBytes.recover .readOnlyData {} none).analysis.types
          sharedBytes.declared (result.annotations {}) := by
  obtain ⟨result, hr, hcreated, hlist⟩ :
      ∃ result, (sharedBytes.recover .readOnlyData {} none).result = .ok result ∧
        result.sliceTypeCreated = true ∧
        (result.annotations {}).map Variable.address = [0x1000, 0x2000, 0x1003, 0x2010] :=
    ⟨_, rfl, rfl, rfl⟩
  obtain ⟨arch, -, hv, -⟩ := data_run_variables hr
  exact ⟨result, hr, hcreated, hlist, by decide +kernel, hv⟩

end SliceRecovery
