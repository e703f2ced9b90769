import SliceRecovery.Proofs.Declaring
import SliceRecovery.Proofs.Ending

/-!
# SliceRecovery.Proofs.CodeRun -- a code run as a trace of visits

A code run visits its byte arrays one after the other. The references to an array come down to one
question, whether some reference suggests a length and which is the first; `suggestion?` is its
answer, and `Trace` is the walk over the arrays with those answers. As in a data run, what the loop
and the whole run do is said once, in `loop_eq_ok`, `run_eq_ok` and `run_eq_error`. Declaring
characters never fails, so a loop of visits does not either.
-/

namespace SliceRecovery

/-- The first reference to an address that suggests a length, with that length. -/
def Analysis.suggestion? (h : Analysis) (a : Address) : Option (CodeReference × UInt64) :=
  (h.referencesTo a).findSome? fun r => (h.lengthFromReference? r).map fun n => (r, n)

namespace CodeRun

/-- An array that was looked at and the new length that it was given. -/
structure Visit where
  array : Variable
  resize : Option ArrayResize

/-- The new lengths that were given, in order. -/
def resizes (vs : List Visit) : List ArrayResize := vs.filterMap Visit.resize

variable {config : RecoveryConfig} {h i : Analysis} {vs : List Visit} {array : Variable}
  {arrays : List Variable}

@[simp]
theorem resizes_nil : resizes [] = [] := rfl

@[simp]
theorem resizes_keep : resizes (⟨array, none⟩ :: vs) = resizes vs := rfl

@[simp]
theorem resizes_resize {r : ArrayResize} : resizes (⟨array, some r⟩ :: vs) = r :: resizes vs := rfl

/-! ## Traces -/

/-- Arrays are visited one after the other: one without a suggestion stays as it is, one with a
suggestion is declared anew as that many characters. -/
inductive Trace : Analysis → List Visit → Analysis → Prop
  | nil {h : Analysis} : Trace h [] h
  | keep {h i : Analysis} {array : Variable} {vs : List Visit} :
      h.suggestion? array.address = none → Trace h vs i → Trace h (⟨array, none⟩ :: vs) i
  | resize {h i j : Analysis} {array : Variable} {r : CodeReference} {n : UInt64}
      {vs : List Visit} :
      h.suggestion? array.address = some (r, n) →
      h.define array.address (.text n) array.name = .ok i → Trace i vs j →
      Trace h (⟨array, some ⟨array.address, r.codeAddress, array.type.arrayLength?, n⟩⟩ :: vs) j

namespace Trace

theorem frame (ht : Trace h vs i) : Analysis.Frame h i := by
  induction ht with
  | nil => exact .refl _
  | keep _ _ ih => exact ih
  | resize _ hd _ ih => exact (Analysis.frame_define hd).trans ih

/-- A trace is journalled as long as no array stands at the largest address, and its journal is
empty only if no array got a new length. -/
theorem journals (ht : Trace h vs i) (hlow : ∀ v ∈ vs, v.array.address < Word.top) :
    ∃ es, Analysis.Journals h i es ∧ (es = [] ↔ resizes vs = []) := by
  induction ht with
  | nil => exact ⟨[], .refl _, by simp⟩
  | keep _ _ ih => exact ih fun v hv => hlow v (List.mem_cons_of_mem _ hv)
  | resize _ hd _ ih =>
    obtain ⟨es, hes, -⟩ := ih fun v hv => hlow v (List.mem_cons_of_mem _ hv)
    obtain ⟨fs, hfs, hne, -⟩ := Analysis.journals_define hd (Or.inl (hlow _ List.mem_cons_self))
    exact ⟨es ++ fs, hfs.trans hes, by simp [hne]⟩

end Trace

/-! ## Following references -/

variable {s s' : RunState} {done total : Nat} {rs : List CodeReference} {e : AnalysisError}

/-- Following references leaves the array alone when none suggests a length, and declares it anew
by the first that does. -/
theorem follow_eq_next (hf : follow array done total rs s = .next s') :
    rs.findSome? (fun r => (s.analysis.lengthFromReference? r).map fun n => (r, n)) = none ∧
        s'.analysis = s.analysis ∧ s'.result = s.result ∨
      ∃ r n, rs.findSome? (fun r => (s.analysis.lengthFromReference? r).map fun n => (r, n)) =
          some (r, n) ∧
        s.analysis.define array.address (.text n) array.name = .ok s'.analysis ∧
        s'.result = { s.result with resized := s.result.resized ++
          [⟨array.address, r.codeAddress, array.type.arrayLength?, n⟩] } := by
  induction rs generalizing s with
  | nil =>
    cases hf
    exact Or.inl ⟨rfl, rfl, rfl⟩
  | cons r rs ih =>
    unfold follow at hf
    dsimp only at hf
    split at hf
    · cases hf
    · rw [List.findSome?_cons]
      split at hf
      · rename_i hnone
        rw [show s.analysis.lengthFromReference? r = none from hnone]
        have hrest := ih hf
        exact hrest
      · rename_i n hn
        rw [show s.analysis.lengthFromReference? r = some n from hn]
        split at hf
        · cases hf
        · rename_i i hi
          cases hf
          exact Or.inr ⟨r, n, rfl, hi, rfl⟩

/-- A run that is cancelled among the references of an array has done nothing to it. -/
theorem follow_eq_stopped (hf : follow array done total rs s = .stopped s') :
    s'.analysis = s.analysis ∧ s'.result = { s.result with status := .cancelled } := by
  induction rs generalizing s with
  | nil => cases hf
  | cons r rs ih =>
    unfold follow at hf
    dsimp only at hf
    split at hf
    · cases hf
      exact ⟨rfl, rfl⟩
    · split at hf
      · have hrest := ih hf
        exact hrest
      · split at hf
        · cases hf
        · cases hf

theorem follow_ne_failed : follow array done total rs s ≠ .failed s' e := by
  intro hf
  induction rs generalizing s with
  | nil => cases hf
  | cons r rs ih =>
    unfold follow at hf
    dsimp only at hf
    split at hf
    · cases hf
    · split at hf
      · exact ih hf
      · rename_i n _
        obtain ⟨i, hi⟩ := Analysis.define_text s.analysis array.address n array.name
        rw [show (s.pass .followingReferences done total).analysis = s.analysis from rfl, hi] at hf
        cases hf

/-! ## The loop -/

/-- A loop that comes to its end has visited a first part of its arrays: all of them, unless it
was cancelled. An array among whose references it was cancelled is counted and left alone. -/
theorem loop_eq_ok (hl : loop total done arrays s = .ok s') :
    ∃ vs rest, arrays = vs.map Visit.array ++ rest ∧ Trace s.analysis vs s'.analysis ∧
      s'.result = { s.result with
        status := s'.result.status
        candidates := s'.result.candidates
        resized := s.result.resized ++ resizes vs } ∧
      (rest = [] ∧ s'.result.status = s.result.status ∨ s'.result.status = .cancelled) := by
  induction arrays generalizing done s with
  | nil =>
    cases hl
    exact ⟨[], [], rfl, .nil, by simp, Or.inl ⟨rfl, rfl⟩⟩
  | cons array arrays ih =>
    unfold loop at hl
    dsimp only at hl
    split at hl
    · cases hl
      exact ⟨[], array :: arrays, rfl, .nil, by simp [RunState.cancel, RunState.pass], Or.inr rfl⟩
    · split at hl
      · rename_i s1 hf
        obtain ⟨vs, rest, rfl, ht, hr, hend⟩ := ih hl
        rcases follow_eq_next hf with ⟨hnone, ha, hres⟩ | ⟨r, n, hsome, hd, hres⟩
        · rw [ha] at ht
          refine ⟨⟨array, none⟩ :: vs, rest, rfl, .keep hnone ht, ?_, ?_⟩
          · rw [hr, hres]
            rfl
          · rw [hres] at hend
            exact hend
        · refine ⟨_, rest, rfl, .resize hsome hd ht, ?_, ?_⟩
          · rw [hr, hres, resizes_resize]
            simp [RunState.count, RunState.pass]
          · rw [hres] at hend
            exact hend
      · -- cancelled among the references: the array was counted and nothing was declared
        rename_i s1 hf
        cases hl
        obtain ⟨ha, hres⟩ := follow_eq_stopped hf
        refine ⟨[], array :: arrays, rfl, ?_, ?_, Or.inr ?_⟩
        · rw [ha]
          exact .nil
        · rw [hres]
          simp [RunState.count, RunState.pass]
        · rw [hres]
      · cases hl

theorem loop_ne_error : loop total done arrays s ≠ .error (s', e) := by
  intro hl
  induction arrays generalizing done s with
  | nil => cases hl
  | cons array arrays ih =>
    unfold loop at hl
    dsimp only at hl
    split at hl
    · cases hl
    · split at hl
      · exact ih hl
      · cases hl
      · rename_i hf
        exact follow_ne_failed hf

/-! ## The whole run -/

variable {cancellation : Cancellation} {result : RunResult} {error : RecoveryError}

/-- The part of a run inside its batch fails only if a batch was open before. -/
theorem inBatch_eq_error (hr : (inBatch config arrays s).result = .error error) :
    (inBatch config arrays s).analysis = s.analysis := by
  unfold inBatch at hr ⊢
  split at hr
  · rfl
  · rename_i h1 hbegin
    obtain ⟨-, rfl⟩ := Analysis.begin_eq_ok_iff.mp hbegin
    split at hr
    · rename_i s1 e hl
      exact absurd hl loop_ne_error
    · rename_i s1 hl
      obtain ⟨vs, rest, -, ht, -, -⟩ := loop_eq_ok hl
      obtain ⟨j, -, hok, -⟩ := RunState.exists_close config arrays.length ht.frame
      rw [hok] at hr
      cases hr

/-- The part of a run inside its batch is a trace in the open batch, and the end of the batch. -/
theorem inBatch_eq_ok (hr : (inBatch config arrays s).result = .ok result) :
    ∃ vs rest i j, s.analysis.batch = none ∧ arrays = vs.map Visit.array ++ rest ∧
      Trace (s.analysis.withBatch (some [])) vs i ∧
      result = { s.result with
        status := result.status
        candidates := result.candidates
        resized := s.result.resized ++ resizes vs } ∧
      (rest = [] ∧ result.status = s.result.status ∨ result.status = .cancelled) ∧
      i.commit = .ok j ∧ (inBatch config arrays s).analysis = Analysis.afterRun config j := by
  unfold inBatch at hr ⊢
  split at hr
  · cases hr
  · rename_i h1 hbegin
    obtain ⟨hb, rfl⟩ := Analysis.begin_eq_ok_iff.mp hbegin
    split at hr
    · rename_i s1 e hl
      exact absurd hl loop_ne_error
    · rename_i s1 hl
      obtain ⟨vs, rest, hcs, ht, hres, hend⟩ := loop_eq_ok hl
      obtain ⟨j, hj, hok, hafter⟩ := RunState.exists_close config arrays.length ht.frame
      rw [hok] at hr
      cases hr
      exact ⟨vs, rest, s1.analysis, j, hb, hcs, ht, hres, hend, hj, hafter⟩

/-- The byte arrays of a run. -/
def candidates (h : Analysis) : List Variable :=
  byteArrayCandidates h (WorkingSet.ofRegions h.segmentRegions h.sections)

theorem workingSet_eq_ok {set : WorkingSet} (hset : h.workingSet = .ok set) :
    set = WorkingSet.ofRegions h.segmentRegions h.sections := by
  unfold Analysis.workingSet at hset
  split at hset
  · cases hset
  · cases hset
    rfl

/-- A run fails or is cancelled before it touches anything, or goes into its batch. -/
theorem run_cases (config : RecoveryConfig) (cancellation : Cancellation) (h : Analysis) :
    (∃ error, (run config cancellation h).result = .error error ∧
        (run config cancellation h).analysis = h) ∨
      (run config cancellation h).result = .ok { mode := .code, status := .cancelled } ∧
          (run config cancellation h).analysis = h ∨
        ∃ watch, run config cancellation h =
          inBatch config (candidates h) ⟨h, { mode := .code }, watch⟩ := by
  generalize hrun : run config cancellation h = outcome
  unfold run at hrun
  dsimp only at hrun
  split at hrun
  · exact Or.inr (Or.inl (by rw [← hrun]; exact ⟨rfl, rfl⟩))
  · split at hrun
    · rename_i e hset
      exact Or.inl ⟨e, by rw [← hrun]; exact ⟨rfl, rfl⟩⟩
    · rename_i set hset
      rw [workingSet_eq_ok hset] at hrun
      split at hrun
      · exact Or.inr (Or.inl (by rw [← hrun]; exact ⟨rfl, rfl⟩))
      · exact Or.inr (Or.inr ⟨_, hrun.symm⟩)

/-- A run with a result was cancelled before it opened its batch, or it opened one, followed a
trace in it and closed it. -/
theorem run_eq_ok (hr : (run config cancellation h).result = .ok result) :
    result = { mode := .code, status := .cancelled } ∧ (run config cancellation h).analysis = h ∨
      ∃ vs rest i j, h.batch = none ∧ candidates h = vs.map Visit.array ++ rest ∧
        Trace (h.withBatch (some [])) vs i ∧
        result = { mode := .code, status := result.status, candidates := result.candidates,
                   resized := resizes vs } ∧
        (rest = [] ∧ result.status = .completed ∨ result.status = .cancelled) ∧
        i.commit = .ok j ∧ (run config cancellation h).analysis = Analysis.afterRun config j := by
  rcases run_cases config cancellation h with ⟨error, herr, -⟩ | ⟨hok, hsame⟩ | ⟨watch, hrun⟩
  · rw [herr] at hr
    cases hr
  · rw [hok] at hr
    cases hr
    exact Or.inl ⟨rfl, hsame⟩
  · rw [hrun] at hr ⊢
    exact Or.inr (inBatch_eq_ok hr)

/-- A run that fails leaves the analysis as it was. -/
theorem run_eq_error (hr : (run config cancellation h).result = .error error) :
    (run config cancellation h).analysis = h := by
  rcases run_cases config cancellation h with ⟨_, -, hsame⟩ | ⟨hok, -⟩ | ⟨watch, hrun⟩
  · exact hsame
  · rw [hok] at hr
    cases hr
  · rw [hrun] at hr ⊢
    exact inBatch_eq_error hr

end CodeRun
end SliceRecovery
