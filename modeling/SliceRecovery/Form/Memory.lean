import SliceRecovery.Json.Decode
import SliceRecovery.Memory.Image

/-!
# SliceRecovery.Form.Memory -- JSON forms of architectures, regions and segments

A form is a writer and a decoder. Members are written in one fixed order, and a member that may be
missing is left out when it has no value.
-/

namespace SliceRecovery

open Json (Decoder Stage)
open Json.Decode (Parts record)

namespace ByteOrder

def names : List (String × ByteOrder) := [("little", little), ("big", big)]

def label : ByteOrder → String
  | little => "little"
  | big => "big"

def toJson (o : ByteOrder) : Json := .str o.label

def decoder : Decoder ByteOrder := Json.Decode.name .direct names

end ByteOrder

namespace RegionKind

def names : List (String × RegionKind) := [("segment", segment), ("section", sectionEntry)]

def label : RegionKind → String
  | segment => "segment"
  | sectionEntry => "section"

def toJson (k : RegionKind) : Json := .str k.label

def decoder (stage : Stage) : Decoder RegionKind := Json.Decode.name stage names

end RegionKind

namespace SectionUse

def names : List (String × SectionUse) :=
  [("default", standard), ("read_only_code", readOnlyCode), ("read_only_data", readOnlyData),
    ("read_write_data", readWriteData), ("external", external)]

def label : SectionUse → String
  | standard => "default"
  | readOnlyCode => "read_only_code"
  | readOnlyData => "read_only_data"
  | readWriteData => "read_write_data"
  | external => "external"

def toJson (u : SectionUse) : Json := .str u.label

def decoder (stage : Stage) : Decoder SectionUse := Json.Decode.name stage names

end SectionUse

namespace Architecture

def toJson (a : Architecture) : Json :=
  .obj [("name", .str a.name), ("address_size", .word a.addressSize),
    ("pointer_width", .word a.pointerWidth), ("endianness", a.byteOrder.toJson),
    ("default_int_size", .word a.defaultIntSize)]

def decoder : Decoder Architecture :=
  record ["name", "address_size", "pointer_width", "endianness", "default_int_size"] fun p =>
    Architecture.mk <$> p.need "name" Json.Decode.text
      <*> p.need "address_size" Json.Decode.word
      <*> p.need "pointer_width" Json.Decode.word
      <*> p.need "endianness" ByteOrder.decoder
      <*> p.need "default_int_size" Json.Decode.word

end Architecture

namespace Region

/-- The members of a region. -/
def toMembers (r : Region) : List (String × Json) :=
  [("start", .word r.start), ("end", .word r.stop), ("kind", r.kind.toJson)]
    ++ Json.member? "name" .str r.name
    ++ [("readable", .bool r.readable), ("writable", .bool r.writable),
      ("executable", .bool r.executable)]
    ++ Json.member? "semantics" SectionUse.toJson r.use

def toJson (r : Region) : Json := .obj r.toMembers

def fieldNames : List String :=
  ["start", "end", "kind", "name", "readable", "writable", "executable", "semantics"]

def decoder (stage : Stage) : Decoder Region :=
  record fieldNames fun p =>
    Region.mk <$> p.need "start" Json.Decode.word
      <*> p.need "end" Json.Decode.word
      <*> p.getD "kind" (RegionKind.decoder stage) .segment
      <*> p.get? "name" Json.Decode.text
      <*> p.getD "readable" Json.Decode.bool false
      <*> p.getD "writable" Json.Decode.bool false
      <*> p.getD "executable" Json.Decode.bool false
      <*> p.get? "semantics" (SectionUse.decoder stage)

end Region

namespace Segment

/-- An array of bytes. -/
def bytesToJson (bytes : List UInt8) : Json := .list (fun b => .int b.toNat) bytes

/-- A segment is written as its region with the bytes after it. -/
def toJson (s : Segment) : Json := .obj (s.region.toMembers ++ [("bytes", bytesToJson s.bytes)])

def decoder : Decoder Segment :=
  Json.Decode.spread ["bytes"] (fun p => p.getD "bytes" (Json.Decode.list Json.Decode.byte) [])
    (Region.decoder .held) fun bytes region => ⟨region, bytes⟩

end Segment
end SliceRecovery
