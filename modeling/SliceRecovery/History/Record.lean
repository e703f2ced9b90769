import SliceRecovery.Recovery.Run
import SliceRecovery.Text.Lowercase

/-!
# SliceRecovery.History.Record -- what is remembered of a run

A record sums a run up. The labels of modes and statuses are read back from stored text; a status
is read in any case and either spelling of the middle one.
-/

namespace SliceRecovery

/-- How a recorded run ended. -/
inductive RecordStatus
  | succeeded
  | canceled
  | failed
  deriving DecidableEq, Repr

/-- What is remembered of a run. The number is missing until the record is stored. -/
structure RunRecord where
  id : Option Int
  binary : String
  mode : RecoveryMode
  binaryHash : Option String
  status : RecordStatus
  accepted : UInt64
  rejected : UInt64
  /-- The message of a run that failed. -/
  error : Option String
  startedAt : String
  finishedAt : String
  deriving DecidableEq, Repr

/-- A rejection as it is stored: the reason as a label and a sentence. -/
structure StoredRejection where
  address : Address
  reason : String
  detail : String
  deriving DecidableEq, Repr

namespace RecordStatus

def label : RecordStatus → String
  | succeeded => "succeeded"
  | canceled => "canceled"
  | failed => "failed"

/-- The status of a run that returned a result. -/
def ofResult (r : RunResult) : RecordStatus :=
  match r.status with
  | .completed => succeeded
  | .cancelled => canceled

/-- The status of a lower-case label. -/
def ofLower? (s : String) : Option RecordStatus :=
  if s = "succeeded" then some succeeded
  else if s = "canceled" ∨ s = "cancelled" then some canceled
  else if s = "failed" then some failed
  else none

/-- The status of a label in any case, or the label in lower case if it is none. -/
def read (s : String) : Except String RecordStatus :=
  let s := Text.lowercase s
  match ofLower? s with
  | some status => .ok status
  | none => .error s

/-- The sentence that reports a lower-case label that is no status. -/
def refusal (s : String) : String := s!"unknown run status '{s}'"

end RecordStatus

namespace RecoveryMode

/-- The sentence that reports a label that is no mode. -/
def refusal (s : String) : String := s!"unknown recovery mode '{s}'"

end RecoveryMode

namespace RunRecord

/-- The record of a run that returned a result. Accepted are the slices of a data run and the
resized arrays of a code run. -/
def ofResult (binary : String) (hash : Option String) (r : RunResult)
    (startedAt finishedAt : String) : RunRecord where
  id := none
  binary := binary
  mode := r.mode
  binaryHash := hash
  status := .ofResult r
  accepted := UInt64.ofNat
    (match r.mode with
    | .readOnlyData => r.slices.length
    | .code => r.resized.length)
  rejected := UInt64.ofNat r.rejections.length
  error := none
  startedAt := startedAt
  finishedAt := finishedAt

/-- The record of a run that failed. -/
def ofError (binary : String) (hash : Option String) (mode : RecoveryMode) (e : RecoveryError)
    (startedAt finishedAt : String) : RunRecord :=
  ⟨none, binary, mode, hash, .failed, 0, 0, some e.message, startedAt, finishedAt⟩

end RunRecord

namespace Rejection

/-- The rejection as it is stored. -/
def stored (r : Rejection) : StoredRejection := ⟨r.address, r.reason.label, r.reason.message⟩

end Rejection
end SliceRecovery
