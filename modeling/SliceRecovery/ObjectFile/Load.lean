import SliceRecovery.ObjectFile.Archive
import SliceRecovery.ObjectFile.Elf
import SliceRecovery.ObjectFile.MachO
import SliceRecovery.ObjectFile.Pe

/-!
# SliceRecovery.ObjectFile.Load -- the memory view of a file of any known format

The format is told by the first bytes. Archives and bare object files are checked but have no
memory view; files of an unknown format have none either.
-/

namespace SliceRecovery.ObjectFile

/-- A result, or the fault of a file that is malformed. -/
def orMalformed {α : Type} : Option α → Except LoadFault α
  | some a => .ok a
  | none => .error .malformed

/-- The fault of a file whose format has no memory view. -/
def withoutView (wellFormed : Bool) : Except LoadFault ObjectImage :=
  .error (if wellFormed then .unrecognized else .malformed)

/-- The memory view of a file. -/
def load (bytes : List UInt8) : Except LoadFault ObjectImage :=
  let magic := bytes.take 4
  if bytes.length < 16 then .error .malformed
  else if magic = [0x7F, 0x45, 0x4C, 0x46] then (orMalformed (Elf.read? bytes)).map (·.image bytes)
  else if bytes.take 8 = [0x21, 0x3C, 0x61, 0x72, 0x63, 0x68, 0x3E, 0x0A] then
    withoutView (isArchive bytes)
  else if bytes.take 2 = [0x4D, 0x5A] then (orMalformed (Pe.read? bytes)).map (·.image bytes)
  else if bytes.take 2 ∈ [[0x4C, 0x01], [0x64, 0x86], [0x64, 0xAA]] then
    withoutView (Pe.isObject bytes)
  else if magic = [0xCA, 0xFE, 0xBA, 0xBE] then .error .fatArchive
  else match MachO.format? magic with
    | some (wide, order) => (orMalformed (MachO.read? bytes wide order)).map (·.image bytes)
    | none => .error .unrecognized

end SliceRecovery.ObjectFile
