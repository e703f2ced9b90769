import SliceRecovery.Proofs.CodeRun
import SliceRecovery.Proofs.DataRun

/-!
# SliceRecovery.Proofs.Atomicity -- a run that fails leaves no trace

The two runs fail for different reasons. A code run fails before it has a batch. A data run can
also fail in the middle of a slice, after the bytes were declared over whatever was there: its
batch is then taken back, and its journal is exact because it ends before anything is declared at
the largest address.
-/

namespace SliceRecovery

variable {mode : RecoveryMode} {config : RecoveryConfig} {cancellation : Cancellation}
  {h : Analysis} {error : RecoveryError}

/-- **A failed run changes nothing.** Whatever the analysis, its open batch, the settings and the
cancellation: an error comes with the analysis as it was before, in every part. -/
theorem recover_eq_error (hr : (h.recover mode config cancellation).result = .error error) :
    (h.recover mode config cancellation).analysis = h := by
  cases mode with
  | readOnlyData => exact DataRun.run_eq_error hr
  | code => exact CodeRun.run_eq_error hr

/-! ## A run that fails in the middle of a slice -/

/-- A binary in which the slice type has a field of an unknown type. The second of two pointers
leads to a string, whose bytes two variables already cover. -/
def unsizedSlice : Analysis where
  arch := some (.ofWordSize "x86_64" 8 .little)
  segments := [
    ⟨{ start := 0x1000, stop := 0x1100, readable := true }, [0, 0, 104, 105, 33]⟩,
    ⟨{ start := 0x2000, stop := 0x2020, readable := true, writable := true },
      [0x00, 0x10, 0, 0, 0, 0, 0, 0, 0, 0, 0, 0, 0, 0, 0, 0,
       0x02, 0x10, 0, 0, 0, 0, 0, 0, 3, 0, 0, 0, 0, 0, 0, 0]⟩]
  types := OrderedMap.empty.insert "RustStringSlice"
    { packed := true, fields := [⟨"address", .named "Missing"⟩] }
  declared := .ofList [
    ⟨0x1001, .raw 2, some "before", none⟩,
    ⟨0x1002, .integer 4 true, some "here", none⟩,
    ⟨0x2000, .pointerTo .char 8, none, none⟩,
    ⟨0x2010, .pointerTo .char 8, none, none⟩]
  history := [[.variableAdded 0x2010]]
  passes := 1

theorem recover_unsizedSlice :
    (unsizedSlice.recover .readOnlyData {} none).result =
        .error (.analysis (.unsizedType 0x2010)) ∧
      (unsizedSlice.recover .readOnlyData {} none).analysis = unsizedSlice :=
  have hr : (unsizedSlice.recover .readOnlyData {} none).result =
      .error (.analysis (.unsizedType 0x2010)) := by rfl
  ⟨hr, recover_eq_error hr⟩

end SliceRecovery
