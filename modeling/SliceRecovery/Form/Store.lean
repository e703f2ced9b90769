import SliceRecovery.Form.History

/-!
# SliceRecovery.Form.Store -- run histories as files

A store is written as one JSON object with a member for every table, `null` for a table that is
missing. Rows of details are grouped by run and keep the order of their listing.
-/

namespace SliceRecovery

open Json (Decoder)
open Json.Decode (record)

/-- A number as it stands in a column. -/
def Json.cell (i : Int64) : Json := .int i.toInt

/-- A number for a column. -/
def Json.Decode.cell : Decoder Int64 := fun r => (Json.Decode.signed r).map Int64.ofInt

namespace RunRow

def toJson (r : RunRow) : Json :=
  .obj [("id", .int r.id), ("binary", .str r.binary), ("mode", .str r.mode),
    ("binary_hash", .nullable .str r.binaryHash), ("status", .str r.status),
    ("accepted", .cell r.accepted), ("rejected", .cell r.rejected),
    ("error", .nullable .str r.error), ("started_at", .str r.startedAt),
    ("finished_at", .str r.finishedAt)]

def decoder : Decoder RunRow :=
  record ["id", "binary", "mode", "binary_hash", "status", "accepted", "rejected", "error",
      "started_at", "finished_at"] fun p =>
    RunRow.mk <$> p.need "id" Json.Decode.signed
      <*> p.need "binary" Json.Decode.text
      <*> p.need "mode" Json.Decode.text
      <*> p.get? "binary_hash" Json.Decode.text
      <*> p.need "status" Json.Decode.text
      <*> p.need "accepted" Json.Decode.cell
      <*> p.need "rejected" Json.Decode.cell
      <*> p.get? "error" Json.Decode.text
      <*> p.need "started_at" Json.Decode.text
      <*> p.need "finished_at" Json.Decode.text

end RunRow

namespace RunTable

def toJson (t : RunTable) : Json :=
  .obj [("has_error", .bool t.hasError), ("rows", .list RunRow.toJson t.rows),
    ("last_id", .int t.lastId)]

def decoder : Decoder RunTable :=
  record ["has_error", "rows", "last_id"] fun p =>
    (fun hasError rows (lastId : UInt64) => RunTable.mk hasError rows lastId.toNat)
      <$> p.need "has_error" Json.Decode.bool
      <*> p.need "rows" (Json.Decode.list RunRow.decoder)
      <*> p.need "last_id" Json.Decode.word

end RunTable

namespace SliceRow

def toJson (r : SliceRow) : Json :=
  .obj [("pointer_address", .cell r.pointerAddress), ("data_address", .cell r.dataAddress),
    ("length", .cell r.length), ("text", .str r.text)]

def decoder : Decoder SliceRow :=
  record ["pointer_address", "data_address", "length", "text"] fun p =>
    SliceRow.mk <$> p.need "pointer_address" Json.Decode.cell
      <*> p.need "data_address" Json.Decode.cell
      <*> p.need "length" Json.Decode.cell
      <*> p.need "text" Json.Decode.text

end SliceRow

namespace ResizeRow

def toJson (r : ResizeRow) : Json :=
  .obj [("address", .cell r.address), ("code_address", .cell r.codeAddress),
    ("previous_length", .nullable .cell r.previousLength), ("length", .cell r.length)]

def decoder : Decoder ResizeRow :=
  record ["address", "code_address", "previous_length", "length"] fun p =>
    ResizeRow.mk <$> p.need "address" Json.Decode.cell
      <*> p.need "code_address" Json.Decode.cell
      <*> p.get? "previous_length" Json.Decode.cell
      <*> p.need "length" Json.Decode.cell

end ResizeRow

namespace RejectionRow

def toJson (r : RejectionRow) : Json :=
  .obj [("address", .cell r.address), ("reason", .str r.reason), ("detail", .str r.detail)]

def decoder : Decoder RejectionRow :=
  record ["address", "reason", "detail"] fun p =>
    RejectionRow.mk <$> p.need "address" Json.Decode.cell
      <*> p.need "reason" Json.Decode.text
      <*> p.need "detail" Json.Decode.text

end RejectionRow

namespace DetailTable

variable {ρ : Type}

def toJson (row : ρ → Json) (t : DetailTable ρ) : Json :=
  .list (fun e => .obj [("run", .int e.1), ("rows", .list row e.2.values)]) t.entries

/-- The rows of one run. -/
def groupDecoder (row : Decoder ρ) : Decoder (Int × List ρ) :=
  record ["run", "rows"] fun p =>
    Prod.mk <$> p.need "run" Json.Decode.signed <*> p.need "rows" (Json.Decode.list row)

def decoder (address : ρ → Int64) (row : Decoder ρ) : Decoder (DetailTable ρ) := fun r =>
  (Json.Decode.list (groupDecoder row) r).map fun groups =>
    groups.foldl (fun t g => g.2.foldl (DetailTable.put address g.1) t) OrderedMap.empty

end DetailTable

namespace Store

def toJson (s : Store) : Json :=
  .obj [("version", .int s.version), ("runs", .nullable RunTable.toJson s.runs),
    ("slices", .nullable (DetailTable.toJson SliceRow.toJson) s.slices),
    ("resized", .nullable (DetailTable.toJson ResizeRow.toJson) s.resized),
    ("rejections", .nullable (DetailTable.toJson RejectionRow.toJson) s.rejections)]

def decoder : Decoder Store :=
  record ["version", "runs", "slices", "resized", "rejections"] fun p =>
    Store.mk <$> p.need "version" Json.Decode.signed
      <*> p.get? "runs" RunTable.decoder
      <*> p.get? "slices" (DetailTable.decoder SliceRow.pointerAddress SliceRow.decoder)
      <*> p.get? "resized" (DetailTable.decoder ResizeRow.address ResizeRow.decoder)
      <*> p.get? "rejections" (DetailTable.decoder RejectionRow.address RejectionRow.decoder)

/-- The content of a store's file. -/
def toBytes (s : Store) : List UInt8 := Text.Utf8.bytes s.toJson.compact

/-- The store in the content of a file. An empty file is a store without tables. -/
def ofBytes? (bytes : List UInt8) : Option Store :=
  if bytes = [] then some {}
  else
    match Text.Utf8.read bytes with
    | .error _ => none
    | .ok text => (Json.Decode.document decoder text).toOption

end Store
end SliceRecovery
