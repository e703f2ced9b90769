import SliceRecovery.Analysis.Snapshot
import SliceRecovery.Form.Code
import SliceRecovery.Form.Memory
import SliceRecovery.Form.Types

/-!
# SliceRecovery.Form.Snapshot -- JSON forms of variables, snapshots and annotations
-/

namespace SliceRecovery

open Json (Decoder)
open Json.Decode (Parts record)

namespace Variable

def toJson (v : Variable) : Json :=
  .obj ([("address", .word v.address), ("type", v.type.toJson)]
    ++ Json.member? "name" .str v.name ++ Json.member? "value" .word v.value)

def decoder : Decoder Variable :=
  record ["address", "type", "name", "value"] fun p =>
    Variable.mk <$> p.need "address" Json.Decode.word
      <*> p.need "type" DataType.decoder
      <*> p.get? "name" Json.Decode.text
      <*> p.get? "value" Json.Decode.word

end Variable

namespace Snapshot

def toJson (s : Snapshot) : Json :=
  .obj (Json.member? "arch" Architecture.toJson s.arch
    ++ [("segments", .list Segment.toJson s.segments),
      ("sections", .list Region.toJson s.sections),
      ("types", TypeTable.toJson s.types),
      ("data_vars", .list Variable.toJson s.declared),
      ("code_refs", .list CodeReference.toJson s.references),
      ("blocks", .list Block.toJson s.blocks)])

def decoder : Decoder Snapshot :=
  record ["arch", "segments", "sections", "types", "data_vars", "code_refs", "blocks"] fun p =>
    Snapshot.mk <$> p.get? "arch" Architecture.decoder
      <*> p.getD "segments" (Json.Decode.list Segment.decoder) []
      <*> p.getD "sections" (Json.Decode.list (Region.decoder .direct)) []
      <*> p.getD "types" TypeTable.decoder OrderedMap.empty
      <*> p.getD "data_vars" (Json.Decode.list Variable.decoder) []
      <*> p.getD "code_refs" (Json.Decode.list CodeReference.decoder) []
      <*> p.getD "blocks" (Json.Decode.list Block.decoder) []

end Snapshot

namespace Annotations

def toJson (a : Annotations) : Json :=
  .obj [("types", TypeTable.toJson a.types), ("data_vars", .list Variable.toJson a.declared)]

def decoder : Decoder Annotations :=
  record ["types", "data_vars"] fun p =>
    Annotations.mk <$> p.need "types" TypeTable.decoder
      <*> p.need "data_vars" (Json.Decode.list Variable.decoder)

end Annotations

/-- Why a stored analysis could not be set up. -/
inductive LoadError
  | json (f : Json.Fault)
  | snapshot (e : EmptyRange)
  deriving DecidableEq, Repr

namespace LoadError

def message : LoadError → String
  | json f => "failed to parse snapshot JSON: <" ++ f.label ++ ">"
  | snapshot e => "invalid snapshot: " ++ e.message

end LoadError

namespace Analysis

/-- Set an analysis up from a reading of a snapshot. -/
def ofDecoded (s : Except Json.Fault Snapshot) : Except LoadError Analysis :=
  match s with
  | .error f => .error (.json f)
  | .ok s => (ofSnapshot s).mapError .snapshot

/-- Set an analysis up from the text of a snapshot. -/
def ofText (text : String) : Except LoadError Analysis :=
  ofDecoded (Json.Decode.document Snapshot.decoder text)

end Analysis
end SliceRecovery
