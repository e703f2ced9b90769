import SliceRecovery.ObjectFile.ElfLinkage

/-!
# SliceRecovery.ObjectFile.Elf -- the memory view of an ELF file

The loadable program headers give the segments and the allocated section headers the sections. In
a relocatable file every section sits at address zero; there the allocated sections are laid out
one after the other, each at the next multiple of its alignment, and a section whose place would
run past the largest address is left out without moving the ones after it. Files without loadable
program headers get a segment for every allocated section. What else the headers point to has no
place in the view but has to be readable.
-/

namespace SliceRecovery.ObjectFile

/-- The headers of an ELF file. -/
structure Elf where
  wide : Bool
  order : ByteOrder
  kind : UInt64
  machine : UInt64
  programs : List ProgramHeader
  sections : List SectionHeader
  /-- The bytes of the table of section names. -/
  names : List UInt8

namespace Elf

/-- The architectures by machine number. -/
def machineName? (machine : UInt64) : Option String :=
  [(62, "x86_64"), (3, "x86"), (183, "arm64"), (40, "armv7"), (8, "mips"), (20, "ppc"),
    (21, "ppc64"), (243, "riscv")].lookup machine

def arch? (e : Elf) : Option Architecture :=
  (machineName? e.machine).map fun n => .ofWordSize n (if e.wide then 8 else 4) e.order

/-- Whether the file is relocatable. -/
def isRelocatable (e : Elf) : Bool := e.kind == 1

/-- The name of a section: the text at its index in the table. An index into the middle of a
character, or past the table, gives the empty name. -/
def nameOf (e : Elf) (h : SectionHeader) : String :=
  ObjectFile.nameOf (e.names.drop h.name.toNat)

/-- The next multiple of an alignment at or after an address; alignments 0 and 1 align nothing. -/
def alignUp? (a alignment : UInt64) : Option UInt64 :=
  if alignment ≤ 1 then some a
  else (Word.add? a (alignment - 1)).map fun b => b / alignment * alignment

/-- Where a section goes after the ones that end at `next`, and where it ends. -/
def place? (next : UInt64) (h : SectionHeader) : Option (UInt64 × UInt64) := do
  let a ← alignUp? next h.alignment
  let stop ← Word.add? a h.size
  return (a, stop)

/-- The allocated sections laid out one after the other from `next` on. -/
def layOut : (next : UInt64) → List SectionHeader → List (SectionHeader × Address)
  | _, [] => []
  | next, h :: hs =>
    if h.isAllocated then
      match place? next h with
      | some (a, stop) => (h, a) :: layOut stop hs
      | none => layOut next hs
    else layOut next hs

/-- The allocated sections with their addresses. -/
def placed (e : Elf) : List (SectionHeader × Address) :=
  if e.isRelocatable then layOut 0 e.sections
  else (e.sections.filter SectionHeader.isAllocated).map fun h => (h, h.address)

/-- The section region of a header at an address. -/
def section? (e : Elf) (h : SectionHeader) (a : Address) : Option Region :=
  ObjectFile.section? (e.nameOf h) a h.size (useOf h.isWritable h.isExecutable)

/-- The segment of a section header at an address. -/
def sectionSegment? (e : Elf) (bytes : List UInt8) (h : SectionHeader) (a : Address) :
    Option Segment :=
  ObjectFile.segment? (some (e.nameOf h)) a h.size ⟨true, h.isWritable, h.isExecutable⟩
    (backing bytes h.offset (if h.isUnbacked then 0 else h.size) h.size)

/-- The memory view of a file with the given headers. -/
def image (e : Elf) (bytes : List UInt8) : ObjectImage :=
  let loaded := (e.programs.filter ProgramHeader.isLoadable).filterMap
    (ProgramHeader.segment? bytes)
  let more :=
    if e.isRelocatable || loaded.isEmpty then
      e.placed.filterMap fun p => e.sectionSegment? bytes p.1 p.2
    else []
  ⟨e.arch?, loaded ++ more, e.placed.filterMap fun p => e.section? p.1 p.2⟩

/-! ## Reading the headers -/

/-- The section headers from an offset on. Offset zero means that there are none; a count of zero
means that the first header holds the count. -/
def readSections? (bytes : List UInt8) (wide : Bool) (order : ByteOrder) (offset count : Nat) :
    Option (List SectionHeader) :=
  if offset = 0 then some []
  else do
    let size := SectionHeader.recordSize wide
    let first := SectionHeader.ofRecord wide order (← record? bytes offset size)
    let count := if count = 0 then first.size.toNat else count
    if bytes.length / size < count then none
    let rest ← table? bytes (offset + size) size (count - 1)
    return first :: rest.map (SectionHeader.ofRecord wide order)

/-- The headers of a file that starts with the ELF magic number. -/
def read? (bytes : List UInt8) : Option Elf := do
  let wide ← [(1, false), (2, true)].lookup (← bytes[4]?)
  let order ← [(1, ByteOrder.little), (2, ByteOrder.big)].lookup (← bytes[5]?)
  let header ← record? bytes 0 (if wide then 64 else 52)
  let f := field order header
  let w : Nat := if wide then 8 else 4
  let programOffset := (f (24 + w) w).toNat
  let sectionOffset := (f (24 + 2 * w) w).toNat
  let counts := 24 + 3 * w + 8
  let programCount := (f counts 2).toNat
  let sectionCount := (f (counts + 4) 2).toNat
  if bytes.length / ProgramHeader.size wide < programCount then none
  let programs ← table? bytes programOffset (ProgramHeader.size wide) programCount
  let programs := programs.map (ProgramHeader.ofRecord wide order)
  let sections ← readSections? bytes wide order sectionOffset sectionCount
  let names ← SectionHeader.textsAt? bytes sections (f (counts + 6) 2).toNat
  let linkage : ElfLinkage := ⟨wide, order, f 18 2, programs, sections⟩
  linkage.tables? bytes
  return {
    wide, order, kind := f 16 2, machine := f 18 2
    programs, sections, names }

end Elf
end SliceRecovery.ObjectFile
