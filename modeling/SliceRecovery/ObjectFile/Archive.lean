import SliceRecovery.ObjectFile.Bytes
import SliceRecovery.Text.Blank

/-!
# SliceRecovery.ObjectFile.Archive -- the members of an archive

An archive is a row of members, each behind a header of sixty bytes at an even offset. Only the
name and the size in a header count. A name may stand behind its header instead, and some members
are tables for the others: an index of symbols in one of three forms, and a list of long names.
-/

namespace SliceRecovery.ObjectFile

/-- A member of an archive: its name with all blanks, the name behind its header if there is one,
and where its bytes are. -/
structure ArchiveMember where
  name : List UInt8
  longName : Option (List UInt8)
  offset : Nat
  size : Nat

/-- The forms of an index of symbols. -/
inductive SymbolIndex
  | bigEndian
  | littleEndian
  | ranged
  deriving DecidableEq

namespace ArchiveMember

/-- The octets of an ASCII text. -/
def octets (text : String) : List UInt8 := text.toList.map fun c => UInt8.ofNat c.toNat

/-- A name padded with blanks to its sixteen bytes. -/
def padded (text : String) : List UInt8 :=
  octets text ++ List.replicate (16 - text.length) 0x20

/-- The size in a header, decimal with blanks behind it. -/
def size? (raw : List UInt8) : Option Nat := do
  let text ← (Text.Utf8.read raw).toOption
  let digits := (text.toList.reverse.dropWhile Text.isBlank).reverse
  if digits.any fun c => 0x80 ≤ c.toNat then none
  decimal? (digits.map fun c => UInt8.ofNat c.toNat)

/-- The length of a name that stands behind its header. -/
def longLength? (name : List UInt8) : Option Nat :=
  if name.take 3 = octets "#1/" then
    decimal? ((name.drop 3).reverse.dropWhile (· = 0x20)).reverse
  else none

/-- The member whose header is at an offset, and the offset behind the member. -/
def read? (bytes : List UInt8) (start : Nat) : Option (ArchiveMember × Nat) := do
  let header ← record? bytes start 60
  let name := header.take 16
  let _ ← (Text.Utf8.read name).toOption
  let size ← size? ((header.drop 48).take 10)
  let offset := start + 60
  match longLength? name with
  | none => return (⟨name, none, offset, size⟩, offset + size)
  | some n =>
    let long ← part? bytes offset n
    let _ ← (Text.Utf8.read long).toOption
    let long := (long.reverse.dropWhile (· = 0)).reverse
    return (⟨name, some long, offset + n, size - n⟩, offset + size)

/-- Read an index of symbols. Each form counts its symbols and has their names at the end. -/
def symbols? (part : List UInt8) : SymbolIndex → Option Unit
  | .bigEndian => do
    let count ← number? .big part 0 4
    let _ ← record? part 4 (4 * count)
    let _ ← texts? part (4 * count + 4) (part.length - (4 * count + 4))
  | .littleEndian => do
    let members ← number? .little part 0 4
    let _ ← record? part 4 (4 * members)
    let count ← number? .little part (4 * members + 4) 4
    let places ← table? part (4 * members + 8) 2 count
    if places.any fun r => field .little r 0 2 = 0 || members < (field .little r 0 2).toNat then none
    let start := 4 * members + 8 + 2 * count
    let _ ← texts? part start (part.length - start)
  | .ranged => do
    let size ← number? .little part 0 4
    let textSize ← number? .little part (size + 4) 4
    let texts ← texts? part (size + 8) textSize
    let entries ← table? part 4 8 (size / 8)
    if entries.any fun r => !hasTextAt texts (field .little r 0 4).toNat then none

/-- The form of an index under the name `/`, which may stand once in either byte order. -/
def nextForm? : Option SymbolIndex → Option SymbolIndex
  | none => some .bigEndian
  | some .bigEndian => some .littleEndian
  | _ => none

/-- Read a member that follows an index of a form, or none. The list of long names counts the byte in
front of it too. -/
def check? (bytes : List UInt8) (index : Option SymbolIndex) (m : ArchiveMember) :
    Option (Option SymbolIndex) := do
  if m.name = padded "/" then
    let form ← nextForm? index
    symbols? (← part? bytes m.offset m.size) form
    return some form
  else if m.longName = some (octets "__.SYMDEF") ∨ m.longName = some (octets "__.SYMDEF SORTED") then
    if index.isSome then none
    symbols? (← part? bytes m.offset m.size) .ranged
    return some .ranged
  else if m.name = padded "//" then
    let _ ← texts? bytes (m.offset - 1) (m.size + 1)
    return index
  else return index

end ArchiveMember

/-- Whether the members of an archive can be read from an offset on. -/
def isArchiveFrom (bytes : List UInt8) : (fuel : Nat) → Option SymbolIndex → (offset : Nat) → Bool
  | 0, _, _ => true
  | fuel + 1, index, offset =>
    if offset + 1 < bytes.length then
      match ArchiveMember.read? bytes (offset + offset % 2) with
      | none => false
      | some (m, next) =>
        match m.check? bytes index with
        | none => false
        | some index => isArchiveFrom bytes fuel index next
    else true

/-- Whether a file that starts with the archive magic is well formed. -/
def isArchive (bytes : List UInt8) : Bool := isArchiveFrom bytes bytes.length none 8

end SliceRecovery.ObjectFile
