import SliceRecovery.ObjectFile.PeDirectory

/-!
# SliceRecovery.ObjectFile.Pe -- the memory view of a PE file

Every section gives a segment and a section at its address relative to the image base. A section
without a size in memory takes its size in the file. A file without an optional header has image
base zero and four-byte addresses.
-/

namespace SliceRecovery.ObjectFile

/-- The headers of a PE file. -/
structure Pe where
  machine : UInt64
  wide : Bool
  imageBase : UInt64
  sections : List PeSection

namespace Pe

/-- The architectures by machine number. -/
def machineName? (machine : UInt64) : Option String :=
  [(0x14C, "x86"), (0x8664, "x86_64"), (0x1C0, "arm"), (0xAA64, "arm64")].lookup machine

def arch? (p : Pe) : Option Architecture :=
  (machineName? p.machine).map fun n => .ofWordSize n (if p.wide then 8 else 4) .little

/-- The memory view of a file with the given headers. -/
def image (p : Pe) (bytes : List UInt8) : ObjectImage :=
  ⟨p.arch?, p.sections.filterMap (PeSection.segment? p.imageBase bytes),
    p.sections.filterMap (PeSection.section? p.imageBase)⟩

/-! ## Reading the headers -/

/-- The headers of a file that starts with the DOS magic number. -/
def read? (bytes : List UInt8) : Option Pe := do
  let dos ← record? bytes 0 128
  let start := (field .little dos 60 4).toNat
  let signature ← record? bytes start 4
  if signature ≠ [0x50, 0x45, 0, 0] then none
  let header ← record? bytes (start + 4) 20
  let f := field .little header
  let optionalSize := (f 16 2).toNat
  let sections ← PeSection.readAll? bytes header (start + 24 + optionalSize)
  if optionalSize = 0 then some { machine := f 0 2, wide := false, imageBase := 0, sections }
  else
    let o ← PeOptional.read? bytes (start + 24)
    o.directories? bytes sections (f 0 2 = 0x8664)
    some { machine := f 0 2, wide := o.wide, imageBase := o.imageBase, sections }

/-! ## Bare object files -/

/-- Whether a file that starts with a machine number has a file header, a section table, and a
symbol table with long names if it says so. The long names are UTF-8, and the number in front of
them counts its own four bytes too. -/
def isObject (bytes : List UInt8) : Bool :=
  (do
    let header ← record? bytes 0 20
    let f := field .little header
    let _ ← PeSection.readAll? bytes header (20 + (f 16 2).toNat)
    let symbols := (f 8 4).toNat
    if symbols ≠ 0 then
      let size := 18 * (f 12 4).toNat
      let _ ← record? bytes symbols size
      let longSize := (field .little (← record? bytes (symbols + size) 4) 0 4).toNat
      if longSize < 4 then none
      let _ ← texts? bytes (symbols + size + 4) (longSize - 4)
    return ()).isSome

end Pe
end SliceRecovery.ObjectFile
