import SliceRecovery.ObjectFile.Bytes

/-!
# SliceRecovery.ObjectFile.MachCommand -- the load commands of a Mach-O file

A load command has a kind and a size, and its fields lie in the file even where its size says less.
Commands for segments are read elsewhere; what some of the others point to has to be in the file
too.
-/

namespace SliceRecovery.ObjectFile

/-- A load command at an offset. -/
structure MachCommand where
  offset : Nat
  kind : Nat
  size : Nat

namespace MachCommand

/-- The command at an offset, which has to lie in the file. -/
def read? (bytes : List UInt8) (order : ByteOrder) (offset : Nat) : Option MachCommand := do
  let r ← record? bytes offset 8
  let size := (field order r 4 4).toNat
  if bytes.length < offset + size then none
  return ⟨offset, (field order r 0 4).toNat, size⟩

/-- Sizes of the fields of the commands by kind. -/
def fieldSizes : List (Nat × List Nat) := [
  (12, [0xE, 0xF, 0x12, 0x13, 0x14, 0x15, 0x17, 0x8000001C, 0x27]),
  (16, [0x3, 0x9, 0x16, 0x1D, 0x1E, 0x24, 0x25, 0x26, 0x29, 0x2A, 0x2B, 0x2D, 0x2E, 0x2F, 0x30,
    0x80000033, 0x80000034]),
  (20, [0x6, 0x7, 0x10, 0x21]),
  (24, [0x2, 0xC, 0xD, 0x1B, 0x20, 0x2C, 0x32, 0x80000018, 0x8000001F, 0x80000023, 0x80000028]),
  (40, [0x11]),
  (48, [0x22, 0x80000022]),
  (72, [0x1A]),
  (80, [0xB])]

/-- Size of the fields of a kind of commands; of an unknown kind only the first two are known. -/
def fieldSize (kind : Nat) : Nat :=
  ((fieldSizes.find? fun e => e.2.contains kind).map (·.1)).getD 8

/-- The kinds of commands that name a library. -/
def libraryKinds : List Nat := [0xC, 0xD, 0x20, 0x80000018, 0x8000001F, 0x80000023]

/-- The machines whose registers are known. -/
def threadMachines : List Nat := [7, 0x1000007, 12, 0x100000C, 0x200000C, 18]

/-- Read the registers of a thread, at most seventy. -/
def thread? (bytes : List UInt8) (order : ByteOrder) (offset : Nat) : Option Unit := do
  let count ← number? order bytes (offset + 12) 4
  if 70 < count then none
  let _ ← record? bytes (offset + 16) (4 * count)

/-- Read a command that is not for a segment. -/
def check? (bytes : List UInt8) (order : ByteOrder) (machine : Nat) (c : MachCommand) :
    Option Unit := do
  let r ← record? bytes c.offset (fieldSize c.kind)
  if c.kind = 2 then
    if field order r 16 4 < field order r 8 4 then none
    let _ ← part? bytes (field order r 8 4).toNat 0
  else if c.kind = 0x8000001C ∨ c.kind ∈ libraryKinds then
    let _ ← textAt? bytes (c.offset + (field order r 8 4).toNat)
  else if c.kind = 4 ∨ c.kind = 5 then
    thread? bytes order c.offset
    if c.kind = 5 ∧ machine ∉ threadMachines then none

end MachCommand
end SliceRecovery.ObjectFile
