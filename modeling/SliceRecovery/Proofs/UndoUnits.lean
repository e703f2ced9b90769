import SliceRecovery.Proofs.CodeRun
import SliceRecovery.Proofs.DataRun
import SliceRecovery.Proofs.Scanning

/-!
# SliceRecovery.Proofs.UndoUnits -- every run is one unit of undo

A run that made edits is one batch of the history and a run that made none is no batch at all, so
undoing is stepping back through the runs that made edits. What makes the step exact is that no
variable stands at the largest address: no run ever puts one there, so the condition is an
invariant, and under it the journal of every run is exact.
-/

namespace SliceRecovery

/-- What a run is started with. -/
structure RunSettings where
  mode : RecoveryMode
  config : RecoveryConfig
  cancellation : Cancellation

/-- Whether a run accepted a slice or resized an array. -/
def RunOutcome.edited (o : RunOutcome) : Bool :=
  match o.result with
  | .ok r => !r.slices.isEmpty || !r.resized.isEmpty
  | .error _ => false

namespace Analysis

/-- The outcome of a run with the given settings. -/
def outcome (h : Analysis) (q : RunSettings) : RunOutcome :=
  h.recover q.mode q.config q.cancellation

/-- The analysis after a run with the given settings. -/
def perform (h : Analysis) (q : RunSettings) : Analysis := (h.outcome q).analysis

/-- The analysis after several runs. -/
def performAll (h : Analysis) (qs : List RunSettings) : Analysis := qs.foldl perform h

/-- The analyses right before the runs that made edits, the last such run first. -/
def beforeEdits (h : Analysis) : List RunSettings → List Analysis
  | [] => []
  | q :: qs => (h.perform q).beforeEdits qs ++ if (h.outcome q).edited then [h] else []

/-- Undo a number of times, as long as there is something to undo. -/
def undoTimes (h : Analysis) : Nat → Option Analysis
  | 0 => some h
  | n + 1 => (h.undoTimes n).bind undo?

/-- The analysis with another number of passes asked for. -/
def withPasses (h : Analysis) (n : Nat) : Analysis := { h with passes := n }

/-- No batch is open and nothing is declared at the largest address. -/
structure Settled (h : Analysis) : Prop where
  closed : h.batch = none
  free : h.declared.get? Word.top = none

variable {h i j : Analysis} {config : RecoveryConfig} {arch : Architecture} {es : List Edit}
  {a b : Address} {type : DataType} {name : Option String} {r : SliceRecord}

/-! ## The largest address stays free -/

theorem Settled.lt_top (hs : h.Settled) (ha : (h.declared.get? a).isSome) : a < Word.top := by
  apply Word.lt_top_of_ne
  rintro rfl
  rw [hs.free] at ha
  cases ha

/-- A declaration elsewhere leaves a free address free. -/
theorem free_define (hi : h.define a type name = .ok i) (hb : b ≠ a)
    (hfree : h.declared.get? b = none) : i.declared.get? b = none := by
  obtain ⟨-, rfl⟩ := define_eq_ok_iff.mp hi
  show (VariableTable.place _ _).get? b = none
  rw [VariableTable.get?_place, if_neg hb, get?_foldl_evict]
  split
  · rfl
  · exact hfree

theorem free_mark (hi : h.mark config arch r = .ok i) (hd : b ≠ r.dataAddress)
    (hp : b ≠ r.pointerAddress) (hfree : h.declared.get? b = none) :
    i.declared.get? b = none := by
  obtain ⟨m, hm, hi⟩ := markSlice_eq_ok_iff.mp hi
  apply free_define hi hp
  apply free_define hm hd
  rw [get?_evict, if_neg hd, declared_ensureSliceType]
  exact hfree

end Analysis

theorem DataRun.Trace.free {config : RecoveryConfig} {arch : Architecture} {h i : Analysis}
    {vs : List Verdict} (ht : Trace config arch h vs i)
    (hlow : ∀ v ∈ vs, v.candidate.source < Word.top)
    (hfree : h.declared.get? Word.top = none) : i.declared.get? Word.top = none := by
  induction ht with
  | nil => exact hfree
  | reject _ _ ih => exact ih (fun v hv => hlow v (List.mem_cons_of_mem _ hv)) hfree
  | accept hres hm _ ih =>
    apply ih fun v hv => hlow v (List.mem_cons_of_mem _ hv)
    have hd := PointerCandidate.dataAddress_lt_top hres
    have hp := hlow _ List.mem_cons_self
    rw [← PointerCandidate.pointerAddress_eq hres] at hp
    exact Analysis.free_mark hm (UInt64.ne_of_lt hd).symm (UInt64.ne_of_lt hp).symm hfree

theorem CodeRun.Trace.free {h i : Analysis} {vs : List Visit} (ht : Trace h vs i)
    (hlow : ∀ v ∈ vs, v.array.address < Word.top)
    (hfree : h.declared.get? Word.top = none) : i.declared.get? Word.top = none := by
  induction ht with
  | nil => exact hfree
  | keep _ _ ih => exact ih (fun v hv => hlow v (List.mem_cons_of_mem _ hv)) hfree
  | resize _ hd _ ih =>
    apply ih fun v hv => hlow v (List.mem_cons_of_mem _ hv)
    exact Analysis.free_define hd (UInt64.ne_of_lt (hlow _ List.mem_cons_self)).symm hfree

/-! ## One run -/

namespace Analysis

/-- What a run leaves, by whether it made edits: nothing but a number of passes, or one more batch
in the history, which undoing takes back exactly. -/
inductive OneUnit (h : Analysis) : Bool → Analysis → Prop
  | unedited (n : Nat) : OneUnit h false (h.withPasses n)
  | edited {i : Analysis} {es : List Edit} : i.batch = none → i.history = es :: h.history →
      (∀ n, (i.withPasses n).undo? = some (h.withPasses n)) → OneUnit h true i

/-- A batch that is closed over a journal is one unit. -/
theorem oneUnit_of_journals (hb : h.batch = none) (hf : Frame (h.withBatch (some [])) i)
    (hes : Journals (h.withBatch (some [])) i es) (hj : i.commit = .ok j)
    (config : RecoveryConfig) : OneUnit h (!es.isEmpty) (afterRun config j) := by
  cases es with
  | nil =>
    rw [hes.eq_of_nil, commit_withBatch_nil hb] at hj
    cases hj
    rw [afterRun_eq]
    exact .unedited _
  | cons e es =>
    rw [commit_of_journals hes (List.cons_ne_nil _ _)] at hj
    cases hj
    have hist : i.history = h.history := hf.history_eq
    have hnew : (e :: es) :: i.history = (e :: es) :: h.history := by rw [hist]
    rw [afterRun_eq]
    exact .edited rfl hnew (undo?_of_journals hb hes)

/-- An unsuccessful or untouched run is a unit without edits. -/
theorem oneUnit_self (h : Analysis) : OneUnit h false h := .unedited h.passes

theorem OneUnit.closed {b : Bool} (hu : OneUnit h b i) (hb : h.batch = none) :
    i.batch = none := by
  cases hu with
  | unedited n => exact hb
  | edited hi _ _ => exact hi

theorem OneUnit.depth {b : Bool} (hu : OneUnit h b i) :
    i.history.length = h.history.length + if b then 1 else 0 := by
  cases hu with
  | unedited n => rfl
  | edited _ hi _ =>
    rw [hi]
    rfl

end Analysis

/-- What a closed batch leaves is settled, if nothing was put at the largest address in it. -/
theorem Analysis.settled_of_oneUnit {h i j : Analysis} {b : Bool} {config : RecoveryConfig}
    (hs : h.Settled) (hu : OneUnit h b (afterRun config j)) (hj : i.commit = .ok j)
    (hfree : i.declared.get? Word.top = none) : (afterRun config j).Settled where
  closed := hu.closed hs.closed
  free := by
    rw [declared_afterRun config hj]
    exact hfree

section Runs

variable {config : RecoveryConfig} {cancellation : Cancellation} {h : Analysis}

theorem DataRun.oneUnit_run (hs : h.Settled) :
    h.OneUnit (run config cancellation h).edited (run config cancellation h).analysis ∧
      (run config cancellation h).analysis.Settled := by
  unfold RunOutcome.edited
  cases hr : (run config cancellation h).result with
  | error error =>
    rw [run_eq_error hr]
    exact ⟨h.oneUnit_self, hs⟩
  | ok result =>
    obtain ⟨arch, -, ⟨rfl, hsame⟩ | ⟨vs, rest, i, j, hb, hcs, ht, hres, -, hj, hafter⟩⟩ :=
      run_eq_ok hr
    · rw [hsame]
      exact ⟨h.oneUnit_self, hs⟩
    · -- candidates stand at declared addresses, so none at the largest
      have hlow : ∀ v ∈ vs, v.candidate.source < Word.top := by
        intro v hv
        apply hs.lt_top
        apply PointerCandidate.isSome_source (c := v.candidate)
        show v.candidate ∈ candidates h arch
        rw [hcs]
        exact List.mem_append_left _ (List.mem_map_of_mem hv)
      obtain ⟨es, hes, hnil⟩ := ht.journals hlow
      have hedited : (!result.slices.isEmpty || !result.resized.isEmpty) = !es.isEmpty := by
        rw [hres]
        show (!(slices vs).isEmpty || false) = _
        rw [Bool.or_false, Bool.not_inj_iff, Bool.eq_iff_iff, List.isEmpty_iff, List.isEmpty_iff]
        exact hnil.symm
      have hunit := Analysis.oneUnit_of_journals hb ht.frame hes hj config
      rw [hafter]
      dsimp only
      rw [hedited]
      exact ⟨hunit, Analysis.settled_of_oneUnit hs hunit hj (ht.free hlow hs.free)⟩

theorem CodeRun.oneUnit_run (hs : h.Settled) :
    h.OneUnit (run config cancellation h).edited (run config cancellation h).analysis ∧
      (run config cancellation h).analysis.Settled := by
  unfold RunOutcome.edited
  cases hr : (run config cancellation h).result with
  | error error =>
    rw [run_eq_error hr]
    exact ⟨h.oneUnit_self, hs⟩
  | ok result =>
    obtain ⟨rfl, hsame⟩ | ⟨vs, rest, i, j, hb, hcs, ht, hres, -, hj, hafter⟩ := run_eq_ok hr
    · rw [hsame]
      exact ⟨h.oneUnit_self, hs⟩
    · -- arrays are declared variables, so none stands at the largest address
      have hlow : ∀ v ∈ vs, v.array.address < Word.top := by
        intro v hv
        apply hs.lt_top
        apply Analysis.isSome_of_mem
        have hc : v.array ∈ candidates h := by
          rw [hcs]
          exact List.mem_append_left _ (List.mem_map_of_mem hv)
        exact (List.mem_filter.mp hc).1
      obtain ⟨es, hes, hnil⟩ := ht.journals hlow
      have hedited : (!result.slices.isEmpty || !result.resized.isEmpty) = !es.isEmpty := by
        rw [hres]
        show (false || !(resizes vs).isEmpty) = _
        rw [Bool.false_or, Bool.not_inj_iff, Bool.eq_iff_iff, List.isEmpty_iff, List.isEmpty_iff]
        exact hnil.symm
      have hunit := Analysis.oneUnit_of_journals hb ht.frame hes hj config
      rw [hafter]
      dsimp only
      rw [hedited]
      exact ⟨hunit, Analysis.settled_of_oneUnit hs hunit hj (ht.free hlow hs.free)⟩

end Runs

namespace Analysis

variable {h i j : Analysis}

/-- Every run is one unit and leaves the analysis settled. -/
theorem oneUnit_perform (hs : h.Settled) (q : RunSettings) :
    h.OneUnit (h.outcome q).edited (h.perform q) ∧ (h.perform q).Settled := by
  obtain ⟨mode, config, cancellation⟩ := q
  cases mode with
  | readOnlyData => exact DataRun.oneUnit_run hs
  | code => exact CodeRun.oneUnit_run hs

/-! ## Many runs -/

theorem settled_performAll (hs : h.Settled) (qs : List RunSettings) :
    (h.performAll qs).Settled := by
  induction qs generalizing h with
  | nil => exact hs
  | cons q qs ih => exact ih (oneUnit_perform hs q).2

/-- Undoing leads from `i` through `levels` down to `h`; passes that were asked for stay so. -/
def Unwinds (h : Analysis) (levels : List Analysis) (i : Analysis) : Prop :=
  (∀ j s, levels[j]? = some s → i.undoTimes (j + 1) = some (s.withPasses i.passes)) ∧
    i.undoTimes levels.length = some (h.withPasses i.passes)

/-- A unit before others adds a level at the bottom if it made edits. -/
theorem OneUnit.unwinds {b : Bool} {levels : List Analysis} (hu : OneUnit h b i)
    (hi : Unwinds i levels j) : Unwinds h (levels ++ if b then [h] else []) j := by
  obtain ⟨hsome, hall⟩ := hi
  cases hu with
  | unedited n =>
    rw [if_neg Bool.false_ne_true, List.append_nil]
    exact ⟨hsome, hall⟩
  | edited _ _ hundo =>
    -- the unit is the oldest of the levels, so it is undone last
    have hfirst : j.undoTimes (levels.length + 1) = some (h.withPasses j.passes) := by
      show (j.undoTimes levels.length).bind undo? = _
      rw [hall]
      exact hundo _
    rw [if_pos rfl]
    refine ⟨fun k s hk => ?_, ?_⟩
    · rcases Nat.lt_or_ge k levels.length with hlt | hge
      · rw [List.getElem?_append_left hlt] at hk
        exact hsome k s hk
      · rw [List.getElem?_append_right hge, List.getElem?_singleton] at hk
        split at hk
        · cases hk
          rw [show k = levels.length by omega]
          exact hfirst
        · cases hk
    · rw [List.length_append]
      exact hfirst

theorem unwinds_performAll (hs : h.Settled) (qs : List RunSettings) :
    Unwinds h (h.beforeEdits qs) (h.performAll qs) := by
  induction qs generalizing h with
  | nil =>
    refine ⟨fun k s hk => ?_, rfl⟩
    cases hk
  | cons q qs ih =>
    obtain ⟨hunit, hsettled⟩ := oneUnit_perform hs q
    exact hunit.unwinds (ih hsettled)

/-- **Each run is one undo unit.** With no batch open and nothing declared at the largest address,
after any sequence of runs: each run left no batch open and made the history longer by one exactly
if it accepted a slice or resized an array, and undoing `j + 1` times gives the analysis before the
last run but `j` of those that made edits, down to the first analysis. -/
theorem runs_undo_one_by_one (hclosed : h.batch = none)
    (hfree : h.declared.get? Word.top = none) (qs : List RunSettings) :
    (∀ before q after, qs = before ++ q :: after →
      ((h.performAll before).perform q).batch = none ∧
      ((h.performAll before).perform q).history.length = (h.performAll before).history.length +
        if ((h.performAll before).outcome q).edited then 1 else 0) ∧
    (∀ j s, (h.beforeEdits qs)[j]? = some s →
      (h.performAll qs).undoTimes (j + 1) = some (s.withPasses (h.performAll qs).passes)) ∧
    (h.performAll qs).undoTimes (h.beforeEdits qs).length =
      some (h.withPasses (h.performAll qs).passes) := by
  have hs : h.Settled := ⟨hclosed, hfree⟩
  refine ⟨?_, unwinds_performAll hs qs⟩
  intro before q after _
  obtain ⟨hunit, hsettled⟩ := oneUnit_perform (settled_performAll hs before) q
  exact ⟨hsettled.closed, hunit.depth⟩

/-- A binary with two strings, the second inside the first, and an array that code gives six
characters. -/
def nestedStrings : Analysis where
  arch := some (.ofWordSize "x86_64" 8 .little)
  segments := [
    ⟨{ start := 0x1000, stop := 0x1100, readable := true }, [104, 101, 108, 108, 111]⟩,
    ⟨{ start := 0x2000, stop := 0x2020, readable := true, writable := true },
      [0x00, 0x10, 0, 0, 0, 0, 0, 0, 5, 0, 0, 0, 0, 0, 0, 0,
       0x02, 0x10, 0, 0, 0, 0, 0, 0, 3, 0, 0, 0, 0, 0, 0, 0]⟩]
  declared := .ofList [
    ⟨0x1001, .raw 2, some "inside", none⟩,
    ⟨0x1040, .text 2, some "array", none⟩,
    ⟨0x2000, .pointerTo .char 8, none, none⟩,
    ⟨0x2010, .pointerTo .char 8, none, none⟩]
  references := [⟨0x4000, 0x1040⟩]
  blocks := [⟨0x4000, [⟨0, 0x4000, .setVariable, []⟩,
    ⟨1, 0x4004, .setField, [⟨.constant, none, some 6⟩]⟩]⟩]

/-- A data run, a cancelled one and a code run are two units of undo. -/
theorem undo_nestedStrings :
    nestedStrings.batch = none ∧ nestedStrings.declared.get? Word.top = none ∧
      (nestedStrings.performAll [⟨.readOnlyData, {}, none⟩, ⟨.readOnlyData, {}, some 1⟩,
        ⟨.code, {}, none⟩]).undoTimes 2 = some { nestedStrings with passes := 2 } :=
  ⟨rfl, rfl, (runs_undo_one_by_one rfl rfl _).2.1 1 nestedStrings rfl⟩

end Analysis
end SliceRecovery
