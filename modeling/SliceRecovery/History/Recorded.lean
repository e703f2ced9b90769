import SliceRecovery.History.Store

/-!
# SliceRecovery.History.Recorded -- runs that are put on record

Every run that returns is recorded, also one that fails. A record that cannot be stored is done
without, and so are details that cannot be: what a run found counts for more than its record.
-/

namespace SliceRecovery

/-- What to run, and how it is called in the history. -/
structure RunRequest where
  binary : String
  binaryHash : Option String := none
  mode : RecoveryMode
  config : RecoveryConfig
  cancellation : Cancellation := none

/-- A run, the number of its record if it has one, and the history after it. -/
structure RecordedRun where
  runId : Option Int
  outcome : RunOutcome
  store : Store

namespace Store

/-- Put a run on record, with the details of its result if it has one. -/
def record (s : Store) (r : RunRecord) (result : Option RunResult) : Option Int × Store :=
  match s.insertRun r, result with
  | .error _, _ => (none, s)
  | .ok (id, s), none => (some id, s)
  | .ok (id, s), some result =>
    match s.insertResult id result with
    | .ok s => (some id, s)
    | .error _ => (some id, s)

/-- Run and put on record. -/
def runRecorded (s : Store) (h : Analysis) (q : RunRequest) (startedAt finishedAt : String) :
    RecordedRun :=
  let outcome := h.recover q.mode q.config q.cancellation
  let (runId, store) :=
    match outcome.result with
    | .ok r => s.record (.ofResult q.binary q.binaryHash r startedAt finishedAt) (some r)
    | .error e => s.record (.ofError q.binary q.binaryHash q.mode e startedAt finishedAt) none
  ⟨runId, outcome, store⟩

end Store
end SliceRecovery
