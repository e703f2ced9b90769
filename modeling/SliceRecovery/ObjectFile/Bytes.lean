import SliceRecovery.Analysis.Snapshot
import SliceRecovery.Text.Utf8

/-!
# SliceRecovery.ObjectFile.Bytes -- fields, tables and names in a file

Headers are read field by field. A field or record that runs past the end of its bytes is not
there, and the file is then malformed; the bytes of a segment are merely cut short.
-/

namespace SliceRecovery.ObjectFile

/-- Why a file could not be loaded. -/
inductive LoadFault
  | malformed
  | fatArchive
  | unrecognized
  deriving DecidableEq, Repr

namespace LoadFault

def message : LoadFault → String
  | malformed => "failed to load object file: <malformed>"
  | fatArchive => "failed to load object file: fat Mach-O archives are not supported"
  | unrecognized => "failed to load object file: unrecognized object format"

end LoadFault

/-- The `size` bytes at an offset. -/
def record? (bytes : List UInt8) (offset size : Nat) : Option (List UInt8) :=
  let part := (bytes.drop offset).take size
  if part.length = size then some part else none

/-- The bytes of a part of a file, which has to start before the end of the file even if it is
empty. -/
def part? (bytes : List UInt8) (offset size : Nat) : Option (List UInt8) :=
  if offset < bytes.length then record? bytes offset size else none

/-- The unsigned integer of `width` bytes at an offset, zero standing for one that is not there. -/
def field (order : ByteOrder) (record : List UInt8) (offset width : Nat) : UInt64 :=
  UInt64.ofNat (Memory.ofBytes order ((record.drop offset).take width))

/-- The unsigned integer of `width` bytes at an offset of a file. -/
def number? (order : ByteOrder) (bytes : List UInt8) (offset width : Nat) : Option Nat :=
  (record? bytes offset width).map (Memory.ofBytes order)

/-- The records of one size that follow each other from an offset. -/
def table? (bytes : List UInt8) (offset size : Nat) : (count : Nat) → Option (List (List UInt8))
  | 0 => some []
  | count + 1 => do
    let first ← record? bytes offset size
    let rest ← table? bytes (offset + size) size count
    return first :: rest

/-- The text at an offset of a file, up to the first zero byte. -/
def textAt? (bytes : List UInt8) (offset : Nat) : Option String :=
  if offset < bytes.length then
    (Text.Utf8.read ((bytes.drop offset).takeWhile (· ≠ 0))).toOption
  else none

/-- The bytes of a table of texts. -/
def texts? (bytes : List UInt8) (offset size : Nat) : Option (List UInt8) := do
  if bytes.length < offset + size then none
  let part := (bytes.drop offset).take size
  let _ ← (Text.Utf8.read part).toOption
  return part

/-- Whether a text starts at an offset of a table of texts. None does inside a character, and an empty
one does at the end of the table unless a zero byte ends the text in front of it. -/
def hasTextAt (texts : List UInt8) (offset : Nat) : Bool :=
  match texts.drop offset with
  | b :: _ => !Text.Utf8.isContinuation b
  | [] => offset = texts.length && (texts.getLast?.map (· != 0)).getD false

/-- The text of a name up to the first zero byte; a name that is not UTF-8 is empty. -/
def nameOf (bytes : List UInt8) : String :=
  match Text.Utf8.read (bytes.takeWhile (· ≠ 0)) with
  | .ok s => s
  | .error _ => ""

/-- The number of a run of decimal digits after an optional plus sign. -/
def decimal? (cs : List UInt8) : Option Nat :=
  let ds := if cs.head? = some 43 then cs.drop 1 else cs
  if ds.isEmpty then none
  else ds.foldlM (fun n c => if 48 ≤ c ∧ c ≤ 57 then some (10 * n + (c.toNat - 48)) else none) 0

/-! ## Regions -/

/-- The bytes of the file behind a range of memory: no more than the file has from the offset on,
no more than the header says, and no more than fit into memory. -/
def backing (bytes : List UInt8) (fileOffset fileSize memorySize : UInt64) : List UInt8 :=
  let size := if fileSize ≤ memorySize then fileSize else memorySize
  let stop := Word.addCapped fileOffset size
  (bytes.drop fileOffset.toNat).take (stop.toNat - fileOffset.toNat)

/-- The permissions of a range of memory. -/
structure Permissions where
  readable : Bool
  writable : Bool
  executable : Bool

/-- A segment of a size, unless it is empty or runs past the largest address. -/
def segment? (name : Option String) (start size : UInt64) (p : Permissions) (bytes : List UInt8) :
    Option Segment := do
  let stop ← Word.add? start size
  let region ← (Region.segment start stop p.readable p.writable p.executable).toOption
  return ⟨{ region with name }, bytes⟩

/-- A section of a size, unless it is empty or runs past the largest address. -/
def section? (name : String) (start size : UInt64) (use : SectionUse) : Option Region := do
  let stop ← Word.add? start size
  (Region.ofUse name start stop use).toOption

/-- The use of a section by its permissions. -/
def useOf (writable executable : Bool) : SectionUse :=
  if executable then .readOnlyCode else if writable then .readWriteData else .readOnlyData

end SliceRecovery.ObjectFile
