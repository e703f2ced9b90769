import SliceRecovery.ObjectFile.Bytes

/-!
# SliceRecovery.ObjectFile.ElfHeader -- program headers and section headers

Two tables describe an ELF file: one for loading, one for linking. Their records have one layout
for wide files and one for narrow ones.
-/

namespace SliceRecovery.ObjectFile

/-- A program header. -/
structure ProgramHeader where
  kind : UInt64
  flags : UInt64
  offset : UInt64
  address : UInt64
  fileSize : UInt64
  memorySize : UInt64

/-- A section header. -/
structure SectionHeader where
  name : UInt64
  kind : UInt64
  flags : UInt64
  address : UInt64
  offset : UInt64
  size : UInt64
  link : UInt64
  alignment : UInt64
  entrySize : UInt64

namespace ProgramHeader

/-- Size of a program header in a file. -/
def size (wide : Bool) : Nat := if wide then 56 else 32

/-- The program header in a record. -/
def ofRecord (wide : Bool) (order : ByteOrder) (r : List UInt8) : ProgramHeader :=
  let f := field order r
  if wide then ⟨f 0 4, f 4 4, f 8 8, f 16 8, f 32 8, f 40 8⟩
  else ⟨f 0 4, f 24 4, f 4 4, f 8 4, f 16 4, f 20 4⟩

/-- Whether the header describes a part to load. -/
def isLoadable (h : ProgramHeader) : Bool := h.kind == 1

def permissions (h : ProgramHeader) : Permissions :=
  ⟨h.flags &&& 4 != 0, h.flags &&& 2 != 0, h.flags &&& 1 != 0⟩

/-- The segment that a header describes. -/
def segment? (bytes : List UInt8) (h : ProgramHeader) : Option Segment :=
  ObjectFile.segment? none h.address h.memorySize h.permissions
    (backing bytes h.offset h.fileSize h.memorySize)

end ProgramHeader

namespace SectionHeader

/-- Size of a section header in a file. -/
def recordSize (wide : Bool) : Nat := if wide then 64 else 40

/-- The section header in a record. -/
def ofRecord (wide : Bool) (order : ByteOrder) (r : List UInt8) : SectionHeader :=
  let f := field order r
  if wide then ⟨f 0 4, f 4 4, f 8 8, f 16 8, f 24 8, f 32 8, f 40 4, f 48 8, f 56 8⟩
  else ⟨f 0 4, f 4 4, f 8 4, f 12 4, f 16 4, f 20 4, f 24 4, f 32 4, f 36 4⟩

/-- Whether the section has a place in memory. -/
def isAllocated (h : SectionHeader) : Bool := h.flags &&& 2 != 0 && h.size != 0

/-- Whether the section has no bytes in the file. -/
def isUnbacked (h : SectionHeader) : Bool := h.kind == 8

def isWritable (h : SectionHeader) : Bool := h.flags &&& 1 != 0

def isExecutable (h : SectionHeader) : Bool := h.flags &&& 4 != 0

/-- Whether the bytes of the section lie in the file and in the address space. -/
def fits (bytes : List UInt8) (h : SectionHeader) : Bool :=
  h.isUnbacked || h.size == 0
    || (h.offset.toNat + h.size.toNat ≤ bytes.length && h.address.toNat + h.size.toNat < Word.span)

/-- The bytes of a section that is a table of texts. -/
def texts? (bytes : List UInt8) (h : SectionHeader) : Option (List UInt8) :=
  ObjectFile.texts? bytes h.offset.toNat h.size.toNat

/-- The table of texts at an index among the sections. An index that stands for "see the first
section" is followed; one past the sections gives an empty table. -/
def textsAt? (bytes : List UInt8) (sections : List SectionHeader) (index : Nat) :
    Option (List UInt8) :=
  let index :=
    if index = 0xFFFF then
      match sections with
      | h :: _ => h.link.toNat
      | [] => index
    else index
  match sections[index]? with
  | none => some []
  | some h => if h.fits bytes then h.texts? bytes else none

end SectionHeader

end SliceRecovery.ObjectFile
