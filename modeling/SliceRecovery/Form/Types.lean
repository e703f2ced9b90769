import SliceRecovery.Json.Decode
import SliceRecovery.Types.DataType

/-!
# SliceRecovery.Form.Types -- JSON forms of data types

A data type is a tagged union: the member `kind` names the variant and is written first. Types
inside a type are held parts of it.
-/

namespace SliceRecovery

open Json (Decoder Stage Reading)
open Json.Decode (Parts record)

namespace DataKind

def names : List (String × DataKind) :=
  [("pointer", pointer), ("integer", integer), ("array", array), ("struct", composite),
    ("other", other)]

def label : DataKind → String
  | pointer => "pointer"
  | integer => "integer"
  | array => "array"
  | composite => "struct"
  | other => "other"

def toJson (k : DataKind) : Json := .str k.label

def decoder (stage : Stage) : Decoder DataKind := Json.Decode.name stage names

end DataKind

namespace DataType

def toJson : DataType → Json
  | pointer w none => .obj [("kind", .str "pointer"), ("width", .word w)]
  | pointer w (some t) =>
    .obj [("kind", .str "pointer"), ("width", .word w), ("target", toJson t)]
  | integer w s => .obj [("kind", .str "integer"), ("width", .word w), ("signed", .bool s)]
  | char => .obj [("kind", .str "char")]
  | array e n => .obj [("kind", .str "array"), ("element", toJson e), ("count", .word n)]
  | named n => .obj [("kind", .str "named"), ("name", .str n)]
  | raw w => .obj [("kind", .str "opaque"), ("width", .word w)]

/-- The variants, with `inner` decoding the types inside. -/
def variants (inner : Decoder DataType) : List (String × Decoder DataType) :=
  [("pointer", record ["width", "target"] fun p =>
      pointer <$> p.need "width" Json.Decode.word <*> p.get? "target" inner),
    ("integer", record ["width", "signed"] fun p =>
      integer <$> p.need "width" Json.Decode.word <*> p.getD "signed" Json.Decode.bool false),
    ("char", Json.Decode.noFields char),
    ("array", record ["element", "count"] fun p =>
      array <$> p.need "element" inner <*> p.need "count" Json.Decode.word),
    ("named", record ["name"] fun p => named <$> p.need "name" Json.Decode.text),
    ("opaque", record ["width"] fun p => raw <$> p.need "width" Json.Decode.word)]

/-- Decode a type whose reading is less than `fuel` containers deep. -/
def decodeWithin : (fuel : Nat) → Stage → Decoder DataType
  | 0, _ => fun _ => .error .mismatched
  | fuel + 1, stage => Json.Decode.tagged stage "kind" (variants (decodeWithin fuel .held))

def decoder : Decoder DataType := fun r => decodeWithin (Reading.depth r + 1) .direct r

end DataType

namespace Field

def toJson (f : Field) : Json := .obj [("name", .str f.name), ("type", f.type.toJson)]

def decoder : Decoder Field :=
  record ["name", "type"] fun p =>
    Field.mk <$> p.need "name" Json.Decode.text <*> p.need "type" DataType.decoder

end Field

namespace Composite

def toJson (c : Composite) : Json :=
  .obj [("packed", .bool c.packed), ("fields", .list Field.toJson c.fields)]

def decoder : Decoder Composite :=
  record ["packed", "fields"] fun p =>
    Composite.mk <$> p.getD "packed" Json.Decode.bool false
      <*> p.need "fields" (Json.Decode.list Field.decoder)

end Composite

namespace TypeTable

/-- A table is written as an object, by ascending name. -/
def toJson (t : TypeTable) : Json := .obj (t.entries.map fun e => (e.1, e.2.toJson))

def decoder : Decoder TypeTable := Json.Decode.map Composite.decoder

end TypeTable
end SliceRecovery
