import SliceRecovery.Form.Memory
import SliceRecovery.Form.Types
import SliceRecovery.Recovery.Run

/-!
# SliceRecovery.Form.Recovery -- JSON forms of settings, candidates and run results
-/

namespace SliceRecovery

open Json (Decoder Stage)
open Json.Decode (Parts record)

namespace RecoveryConfig

def toJson (c : RecoveryConfig) : Json :=
  .obj [("max_length", .word c.maxLength), ("slice_type_name", .str c.sliceTypeName),
    ("name_prefix", .str c.displayLead), ("request_reanalysis", .bool c.requestPass)]

def decoder : Decoder RecoveryConfig :=
  let d : RecoveryConfig := {}
  record ["max_length", "slice_type_name", "name_prefix", "request_reanalysis"] fun p =>
    RecoveryConfig.mk <$> p.getD "max_length" Json.Decode.word d.maxLength
      <*> p.getD "slice_type_name" Json.Decode.text d.sliceTypeName
      <*> p.getD "name_prefix" Json.Decode.text d.displayLead
      <*> p.getD "request_reanalysis" Json.Decode.bool d.requestPass

end RecoveryConfig

namespace PointerCandidate

def toJson (c : PointerCandidate) : Json :=
  .obj [("source", .word c.source), ("pointer_width", .word c.pointerWidth),
    ("pointee", .word c.pointee)]

def decoder : Decoder PointerCandidate :=
  record ["source", "pointer_width", "pointee"] fun p =>
    PointerCandidate.mk <$> p.need "source" Json.Decode.word
      <*> p.need "pointer_width" Json.Decode.word <*> p.need "pointee" Json.Decode.word

end PointerCandidate

namespace LengthField

def toJson (f : LengthField) : Json :=
  .obj [("address", .word f.address), ("value", .word f.value), ("width", .word f.width),
    ("endianness", f.byteOrder.toJson)]

def decoder : Decoder LengthField :=
  record ["address", "value", "width", "endianness"] fun p =>
    LengthField.mk <$> p.need "address" Json.Decode.word <*> p.need "value" Json.Decode.word
      <*> p.need "width" Json.Decode.word <*> p.need "endianness" ByteOrder.decoder

end LengthField

namespace SliceRecord

def toJson (r : SliceRecord) : Json :=
  .obj [("pointer_address", .word r.pointerAddress), ("data_address", .word r.dataAddress),
    ("length", .word r.length), ("bytes", Segment.bytesToJson r.bytes), ("text", .str r.text)]

def decoder : Decoder SliceRecord :=
  record ["pointer_address", "data_address", "length", "bytes", "text"] fun p =>
    SliceRecord.mk <$> p.need "pointer_address" Json.Decode.word
      <*> p.need "data_address" Json.Decode.word
      <*> p.need "length" Json.Decode.word
      <*> p.need "bytes" (Json.Decode.list Json.Decode.byte)
      <*> p.need "text" Json.Decode.text

end SliceRecord

namespace ArrayResize

def toJson (r : ArrayResize) : Json :=
  .obj [("address", .word r.address), ("code_address", .word r.codeAddress),
    ("previous_length", .nullable .word r.previousLength), ("length", .word r.length)]

def decoder : Decoder ArrayResize :=
  record ["address", "code_address", "previous_length", "length"] fun p =>
    ArrayResize.mk <$> p.need "address" Json.Decode.word
      <*> p.need "code_address" Json.Decode.word
      <*> p.nullable "previous_length" Json.Decode.word
      <*> p.need "length" Json.Decode.word

end ArrayResize

namespace RejectReason

/-- The members of a reason, its label first. -/
def toMembers : RejectReason → List (String × Json)
  | zeroLength => [("reason", .str "zero_length")]
  | tooLong n limit =>
    [("reason", .str "too_long"), ("length", .word n), ("limit", .word limit)]
  | readFailure a n =>
    [("reason", .str "read_failure"), ("address", .word a), ("length", .word n)]
  | decodeFailure n => [("reason", .str "decode_failure"), ("valid_up_to", .word n)]
  | conflictingType a k =>
    [("reason", .str "conflicting_type"), ("address", .word a), ("kind", k.toJson)]

def toJson (r : RejectReason) : Json := .obj r.toMembers

def variants : List (String × Decoder RejectReason) :=
  [("zero_length", Json.Decode.noFields zeroLength),
    ("too_long", record ["length", "limit"] fun p =>
      tooLong <$> p.need "length" Json.Decode.word <*> p.need "limit" Json.Decode.word),
    ("read_failure", record ["address", "length"] fun p =>
      readFailure <$> p.need "address" Json.Decode.word <*> p.need "length" Json.Decode.word),
    ("decode_failure", record ["valid_up_to"] fun p =>
      decodeFailure <$> p.need "valid_up_to" Json.Decode.word),
    ("conflicting_type", record ["address", "kind"] fun p =>
      conflictingType <$> p.need "address" Json.Decode.word
        <*> p.need "kind" (DataKind.decoder .held))]

def decoder (stage : Stage) : Decoder RejectReason :=
  Json.Decode.tagged stage "reason" variants

end RejectReason

namespace Rejection

/-- A rejection is written as its address with the members of its reason after it. -/
def toJson (r : Rejection) : Json :=
  .obj (("address", .word r.address) :: r.reason.toMembers)

def decoder : Decoder Rejection :=
  Json.Decode.spread ["address"] (fun p => p.need "address" Json.Decode.word)
    (RejectReason.decoder .held) Rejection.mk

end Rejection

namespace RecoveryMode

def names : List (String × RecoveryMode) := [("readonly_data", readOnlyData), ("code", code)]

def toJson (m : RecoveryMode) : Json := .str m.label

def decoder : Decoder RecoveryMode := Json.Decode.name .direct names

end RecoveryMode

namespace RunStatus

def names : List (String × RunStatus) := [("completed", completed), ("cancelled", cancelled)]

def label : RunStatus → String
  | completed => "completed"
  | cancelled => "cancelled"

/-- The word for a status in reports. -/
def title : RunStatus → String
  | completed => "Completed"
  | cancelled => "Cancelled"

def toJson (s : RunStatus) : Json := .str s.label

def decoder : Decoder RunStatus := Json.Decode.name .direct names

end RunStatus

namespace Phase

def names : List (String × Phase) :=
  [("classifying_regions", classifyingRegions), ("scanning_pointers", scanningPointers),
    ("resolving_slices", resolvingSlices), ("scanning_arrays", scanningArrays),
    ("following_references", followingReferences), ("finishing", finishing)]

def label : Phase → String
  | classifyingRegions => "classifying_regions"
  | scanningPointers => "scanning_pointers"
  | resolvingSlices => "resolving_slices"
  | scanningArrays => "scanning_arrays"
  | followingReferences => "following_references"
  | finishing => "finishing"

def toJson (p : Phase) : Json := .str p.label

def decoder : Decoder Phase := Json.Decode.name .direct names

end Phase

namespace RunResult

def toJson (r : RunResult) : Json :=
  .obj [("mode", r.mode.toJson), ("status", r.status.toJson), ("candidates", .word r.candidates),
    ("slices", .list SliceRecord.toJson r.slices), ("resized", .list ArrayResize.toJson r.resized),
    ("rejections", .list Rejection.toJson r.rejections),
    ("slice_type_created", .bool r.sliceTypeCreated)]

def decoder : Decoder RunResult :=
  record ["mode", "status", "candidates", "slices", "resized", "rejections",
      "slice_type_created"] fun p =>
    RunResult.mk <$> p.need "mode" RecoveryMode.decoder
      <*> p.need "status" RunStatus.decoder
      <*> p.need "candidates" Json.Decode.word
      <*> p.need "slices" (Json.Decode.list SliceRecord.decoder)
      <*> p.need "resized" (Json.Decode.list ArrayResize.decoder)
      <*> p.need "rejections" (Json.Decode.list Rejection.decoder)
      <*> p.need "slice_type_created" Json.Decode.bool

end RunResult
end SliceRecovery
