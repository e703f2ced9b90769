import SliceRecovery.ObjectFile.Bytes

/-!
# SliceRecovery.ObjectFile.PeSection -- the sections of PE files and of bare object files

A section has a range of memory and a range of the file. The two ranges differ in size, and what
of the file is mapped is rounded: the start down to a multiple of 512, and the size up. An address
relative to the image base leads to the offset in the first section that covers it.
-/

namespace SliceRecovery.ObjectFile

/-- A section of a PE file. -/
structure PeSection where
  name : String
  memorySize : UInt64
  address : UInt64
  fileSize : UInt64
  fileOffset : UInt64
  flags : UInt64

namespace PeSection

/-- Size of a section in memory. -/
def size (s : PeSection) : UInt64 := if s.memorySize = 0 then s.fileSize else s.memorySize

def permissions (s : PeSection) : Permissions :=
  ⟨s.flags &&& 0x40000000 != 0, s.flags &&& 0x80000000 != 0, s.flags &&& 0x20000000 != 0⟩

/-- The segment of a section. -/
def segment? (base : UInt64) (bytes : List UInt8) (s : PeSection) : Option Segment :=
  ObjectFile.segment? (some s.name) (Word.addCapped base s.address) s.size s.permissions
    (backing bytes s.fileOffset (if s.fileSize ≤ s.size then s.fileSize else s.size) s.size)

/-- The section region of a section. -/
def section? (base : UInt64) (s : PeSection) : Option Region :=
  ObjectFile.section? s.name (Word.addCapped base s.address) s.size
    (useOf s.permissions.writable s.permissions.executable)

/-! ## Offsets of addresses -/

/-- The first multiple of a size that is not below a number. -/
def roundUp (size n : Nat) : Nat := (n + (size - 1)) / size * size

/-- Offset of the first byte that is mapped. -/
def mappedOffset (s : PeSection) : Nat := s.fileOffset.toNat / 512 * 512

/-- Number of bytes that are mapped when parts of the file are aligned to a size. -/
def mappedSize (alignment : Nat) (s : PeSection) : Nat :=
  let stop := roundUp alignment (s.fileOffset.toNat + s.fileSize.toNat)
  let size := min (stop - s.mappedOffset) (roundUp 4096 s.fileSize.toNat)
  if s.memorySize = 0 then size else min size (roundUp 4096 s.memorySize.toNat)

/-- The offset of an address. The alignment has to be a power of two. -/
def offsetOf? (alignment : UInt64) (sections : List PeSection) (address : Nat) : Option Nat :=
  if alignment = 0 ∨ alignment &&& (alignment - 1) ≠ 0 then none
  else
    (sections.find? fun s =>
      s.address.toNat ≤ address && address < s.address.toNat + s.mappedSize alignment.toNat).map
        fun s => address - s.address.toNat + s.mappedOffset

/-! ## Reading the section table -/

/-- The number of a run of base-64 digits. -/
def base64? (cs : List UInt8) : Option Nat :=
  cs.foldlM (fun n c =>
    if 65 ≤ c ∧ c ≤ 90 then some (64 * n + (c.toNat - 65))
    else if 97 ≤ c ∧ c ≤ 122 then some (64 * n + (c.toNat - 71))
    else if 48 ≤ c ∧ c ≤ 57 then some (64 * n + (c.toNat + 4))
    else if c = 43 then some (64 * n + 62)
    else if c = 47 then some (64 * n + 63)
    else none) 0

/-- The name of a section. A name that starts with a slash is a place in the table of long names,
in decimal or, after a second slash, in base 64. -/
def name? (bytes : List UInt8) (longNames : Nat) (raw : List UInt8) : Option String :=
  match raw with
  | 47 :: rest =>
    let index? := match rest with
      | 47 :: rest => base64? (rest.takeWhile (· ≠ 0))
      | rest => decimal? (rest.takeWhile (· ≠ 0))
    index?.bind fun index => textAt? bytes (longNames + index)
  | raw => some (nameOf raw)

/-- The section in a record. -/
def read? (bytes : List UInt8) (longNames : Nat) (r : List UInt8) : Option PeSection := do
  let f := field .little r
  let name ← name? bytes longNames (r.take 8)
  return ⟨name, f 8 4, f 12 4, f 16 4, f 20 4, f 36 4⟩

/-- The sections and the number of the first byte after them, from the file header at an offset
and the section table at another. -/
def readAll? (bytes : List UInt8) (header : List UInt8) (offset : Nat) :
    Option (List PeSection) := do
  let f := field .little header
  let count := (f 2 2).toNat
  if bytes.length / 40 < count then none
  let longNames := (f 8 4).toNat + 18 * (f 12 4).toNat
  (← table? bytes offset 40 count).mapM (read? bytes longNames)

end PeSection
end SliceRecovery.ObjectFile
