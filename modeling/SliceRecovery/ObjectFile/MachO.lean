import SliceRecovery.ObjectFile.MachCommand

/-!
# SliceRecovery.ObjectFile.MachO -- the memory view of a Mach-O file

The load commands for segments give the segments and, with their section headers, the sections. A
section's use follows from its name where the name is a known one, else from the permissions of
its segment. Other load commands are looked at and passed over.
-/

namespace SliceRecovery.ObjectFile

/-- A section of a Mach-O segment. -/
structure MachSection where
  name : String
  address : UInt64
  size : UInt64

/-- A segment of a Mach-O file. -/
structure MachSegment where
  name : String
  address : UInt64
  memorySize : UInt64
  fileOffset : UInt64
  fileSize : UInt64
  protection : UInt64
  /-- The sections; none if their headers run past the end of the file. -/
  sections : List MachSection

/-- The headers of a Mach-O file. -/
structure MachO where
  wide : Bool
  order : ByteOrder
  machine : UInt64
  segments : List MachSegment

namespace MachSegment

def permissions (s : MachSegment) : Permissions :=
  ⟨s.protection &&& 1 != 0, s.protection &&& 2 != 0, s.protection &&& 4 != 0⟩

/-- The segment, if it takes up memory. -/
def segment? (bytes : List UInt8) (s : MachSegment) : Option Segment :=
  ObjectFile.segment? (some s.name) s.address s.memorySize s.permissions
    (backing bytes s.fileOffset s.fileSize s.memorySize)

/-- The use of a section of the segment. -/
def useOf (s : MachSegment) (sectionName : String) : SectionUse :=
  if s.name = "__TEXT" ∧ sectionName ∈ ["__text", "__stubs", "__stub_helper"] then .readOnlyCode
  else if s.name = "__TEXT" ∧ sectionName ∈ ["__const", "__cstring", "__rodata"] then .readOnlyData
  else if s.name = "__DATA_CONST" then .readOnlyData
  else ObjectFile.useOf s.permissions.writable s.permissions.executable

/-- The section regions of the segment. -/
def sectionRegions (s : MachSegment) : List Region :=
  s.sections.filterMap fun t =>
    ObjectFile.section? (s.name ++ "," ++ t.name) t.address t.size (s.useOf t.name)

end MachSegment

namespace MachO

/-- The architectures by machine number. -/
def machineName? (machine : UInt64) : Option String :=
  [(7, "x86"), (0x1000007, "x86_64"), (12, "armv7"), (0x100000C, "arm64")].lookup machine

def arch? (m : MachO) : Option Architecture :=
  (machineName? m.machine).map fun n => .ofWordSize n (if m.wide then 8 else 4) m.order

/-- The memory view of a file with the given headers. -/
def image (m : MachO) (bytes : List UInt8) : ObjectImage :=
  ⟨m.arch?, m.segments.filterMap (MachSegment.segment? bytes),
    m.segments.flatMap MachSegment.sectionRegions⟩

/-! ## Reading the headers -/

/-- Width of addresses and byte order by the first four bytes. -/
def format? (magic : List UInt8) : Option (Bool × ByteOrder) :=
  [([0xFE, 0xED, 0xFA, 0xCE], (false, ByteOrder.big)),
    ([0xCE, 0xFA, 0xED, 0xFE], (false, ByteOrder.little)),
    ([0xFE, 0xED, 0xFA, 0xCF], (true, ByteOrder.big)),
    ([0xCF, 0xFA, 0xED, 0xFE], (true, ByteOrder.little))].lookup magic

/-- The section in a record. -/
def readSection (wide : Bool) (order : ByteOrder) (r : List UInt8) : MachSection :=
  let f := field order r
  if wide then ⟨nameOf (r.take 16), f 32 8, f 40 8⟩ else ⟨nameOf (r.take 16), f 32 4, f 36 4⟩

/-- The segment of a load command at an offset; `wideCommand` tells which of the two layouts the
command has. Its part of the file has to lie in the file. -/
def readSegment? (bytes : List UInt8) (wide : Bool) (order : ByteOrder) (wideCommand : Bool)
    (offset : Nat) : Option MachSegment := do
  let r ← record? bytes offset (if wideCommand then 72 else 56)
  let f := field order r
  let w : Nat := if wideCommand then 8 else 4
  let fileOffset := f (24 + 2 * w) w
  let fileSize := f (24 + 3 * w) w
  if fileSize ≠ 0 ∧ bytes.length < fileOffset.toNat + fileSize.toNat then none
  let count := (f (24 + 4 * w + 8) 4).toNat
  let sections :=
    (table? bytes (offset + if wide then 72 else 56) (if wide then 80 else 68)
      (min count (bytes.length + 1))).getD []
  return {
    name := nameOf ((r.drop 8).take 16), address := f 24 w, memorySize := f (24 + w) w
    fileOffset, fileSize, protection := f (24 + 4 * w + 4) 4
    sections := sections.map (readSection wide order) }

/-- The segments among the load commands that are left. -/
def readCommands? (bytes : List UInt8) (wide : Bool) (order : ByteOrder) (machine : UInt64) :
    (count offset : Nat) → Option (List MachSegment)
  | 0, _ => some []
  | count + 1, offset => do
    let c ← MachCommand.read? bytes order offset
    let rest := readCommands? bytes wide order machine count (offset + c.size)
    if c.kind = 1 ∨ c.kind = 0x19 then
      let s ← readSegment? bytes wide order (c.kind = 0x19) offset
      return s :: (← rest)
    else
      c.check? bytes order machine.toNat
      rest

/-- The headers of a file of a known format. A load command has at least eight bytes. The file is at
least as long as a wide header even if its own is narrow. -/
def read? (bytes : List UInt8) (wide : Bool) (order : ByteOrder) : Option MachO := do
  if bytes.length < 32 then none
  let size := if wide then 32 else 28
  let f := field order (← record? bytes 0 size)
  let count := (f 16 4).toNat
  let commandsSize := (f 20 4).toNat
  if commandsSize / 8 < count ∨ bytes.length < commandsSize then none
  let segments ← readCommands? bytes wide order (f 4 4) count size
  return { wide, order, machine := f 4 4, segments }

end MachO
end SliceRecovery.ObjectFile
