import SliceRecovery.Form.Recovery
import SliceRecovery.History.Store

/-!
# SliceRecovery.Form.History -- JSON forms of recorded runs
-/

namespace SliceRecovery

open Json (Decoder)
open Json.Decode (Parts record)

namespace RecordStatus

def names : List (String × RecordStatus) :=
  [("succeeded", succeeded), ("canceled", canceled), ("failed", failed)]

def toJson (s : RecordStatus) : Json := .str s.label

def decoder : Decoder RecordStatus := Json.Decode.name .direct names

end RecordStatus

namespace RunRecord

/-- The members of a record. -/
def toMembers (r : RunRecord) : List (String × Json) :=
  Json.member? "id" .int r.id
    ++ [("binary", .str r.binary), ("mode", r.mode.toJson),
      ("binary_hash", .nullable .str r.binaryHash), ("status", r.status.toJson),
      ("accepted", .word r.accepted), ("rejected", .word r.rejected)]
    ++ Json.member? "error" .str r.error
    ++ [("started_at", .str r.startedAt), ("finished_at", .str r.finishedAt)]

def toJson (r : RunRecord) : Json := .obj r.toMembers

def decoder : Decoder RunRecord :=
  record ["id", "binary", "mode", "binary_hash", "status", "accepted", "rejected", "error",
      "started_at", "finished_at"] fun p =>
    RunRecord.mk <$> p.get? "id" Json.Decode.signed
      <*> p.need "binary" Json.Decode.text
      <*> p.need "mode" RecoveryMode.decoder
      <*> p.nullable "binary_hash" Json.Decode.text
      <*> p.need "status" RecordStatus.decoder
      <*> p.need "accepted" Json.Decode.word
      <*> p.need "rejected" Json.Decode.word
      <*> p.get? "error" Json.Decode.text
      <*> p.need "started_at" Json.Decode.text
      <*> p.need "finished_at" Json.Decode.text

end RunRecord

namespace StoredRejection

def toJson (r : StoredRejection) : Json :=
  .obj [("address", .word r.address), ("reason", .str r.reason), ("detail", .str r.detail)]

def decoder : Decoder StoredRejection :=
  record ["address", "reason", "detail"] fun p =>
    StoredRejection.mk <$> p.need "address" Json.Decode.word
      <*> p.need "reason" Json.Decode.text
      <*> p.need "detail" Json.Decode.text

end StoredRejection

/-- A recorded run with its details. -/
structure RunDetails where
  run : RunRecord
  slices : List SliceRecord
  resized : List ArrayResize
  rejections : List StoredRejection

namespace RunDetails

/-- The details of the run with a number. -/
def load (s : Store) (id : Int) : Except StoreError (Option RunDetails) := do
  match ← s.run? id with
  | none => return none
  | some run => return some ⟨run, ← s.slicesOf id, ← s.resizedOf id, ← s.rejectionsOf id⟩

/-- Details are written after the members of their record. -/
def toJson (d : RunDetails) : Json :=
  .obj (d.run.toMembers ++
    [("slices", .list SliceRecord.toJson d.slices), ("resized", .list ArrayResize.toJson d.resized),
      ("rejections", .list StoredRejection.toJson d.rejections)])

end RunDetails
end SliceRecovery
