import SliceRecovery.ObjectFile.PeSection

/-!
# SliceRecovery.ObjectFile.PeDirectory -- the optional header of a PE file and its directories

The optional header ends in a table of directories, each an address with a size; one whose address
and size are zero is absent. Imports, exceptions, certificates and debug information have no place
of their own in the memory view, but a file in which one of them cannot be read is malformed. What a
file exports may be broken.
-/

namespace SliceRecovery.ObjectFile

/-- The optional header of a PE file. -/
structure PeOptional where
  wide : Bool
  imageBase : UInt64
  /-- The size to which parts of the file are aligned. -/
  alignment : UInt64
  /-- Address and size of each directory. -/
  directories : List (Nat × Nat)

namespace PeOptional

/-- The optional header at an offset. It has at most sixteen directories. -/
def read? (bytes : List UInt8) (offset : Nat) : Option PeOptional := do
  let kind ← number? .little bytes offset 2
  let wide ← [(0x10B, false), (0x20B, true)].lookup kind
  let size := if wide then 112 else 96
  let f := field .little (← record? bytes offset size)
  let count := (f (size - 4) 4).toNat
  if 16 < count then none
  let entries ← table? bytes (offset + size) 8 count
  let directories := entries.map fun r => ((field .little r 0 4).toNat, (field .little r 4 4).toNat)
  return ⟨wide, if wide then f 24 8 else f 28 4, f 36 4, directories⟩

/-- A directory, unless it is absent. -/
def directory? (o : PeOptional) (index : Nat) : Option (Nat × Nat) :=
  o.directories[index]?.filter (· ≠ (0, 0))

/-! ## Imports -/

/-- Read words until one is zero. -/
def words? (o : PeOptional) (bytes : List UInt8) : (fuel offset : Nat) → Option (List Nat)
  | 0, _ => none
  | fuel + 1, offset => do
    let width := if o.wide then 8 else 4
    let n ← number? .little bytes offset width
    if n = 0 then some [] else return n :: (← words? o bytes fuel (offset + width))

/-- Read the name behind an entry of a table of imports: by number there is none, and an address
that leads nowhere is passed over. Two bytes stand in front of the name. -/
def importName? (o : PeOptional) (bytes : List UInt8) (sections : List PeSection) (entry : Nat) :
    Option Unit :=
  if (if o.wide then Word.half else 0x80000000) ≤ entry then some ()
  else
    match PeSection.offsetOf? o.alignment sections (entry % 0x80000000) with
    | none => some ()
    | some offset => do
      let _ ← record? bytes offset 2
      let _ ← textAt? bytes (offset + 2)

/-- Read what is imported from one library. The table of names may be missing; the table of
addresses then stands for it. -/
def library? (o : PeOptional) (bytes : List UInt8) (sections : List PeSection)
    (names name addresses : Nat) : Option Unit := do
  let offsetOf? := PeSection.offsetOf? o.alignment sections
  let _ ← textAt? bytes (← offsetOf? name)
  let fuel := bytes.length + 1
  match (offsetOf? names).or (offsetOf? addresses) with
  | none => pure ()
  | some offset => (← o.words? bytes fuel offset).forM (o.importName? bytes sections)
  let _ ← o.words? bytes fuel (← offsetOf? addresses)

/-- Read the imported libraries up to an entry of zeros. -/
def libraries? (o : PeOptional) (bytes : List UInt8) (sections : List PeSection) :
    (fuel offset : Nat) → Option Unit
  | 0, _ => none
  | fuel + 1, offset => do
    let r ← record? bytes offset 20
    if r.all (· = 0) then some ()
    else
      let f (i : Nat) := (field .little r i 4).toNat
      o.library? bytes sections (f 0) (f 12) (f 16)
      libraries? o bytes sections fuel (offset + 20)

/-! ## Other directories -/

/-- Read certificates from one offset to another, each aligned to eight bytes. A certificate has a
length, a revision and a kind. -/
def certificates? (bytes : List UInt8) : (fuel offset stop : Nat) → Option Unit
  | 0, _, _ => none
  | fuel + 1, offset, stop =>
    if stop ≤ offset then some ()
    else do
      let f := field .little (← record? bytes offset 8)
      let size := (f 0 4).toNat - 8
      if bytes.length < offset + 8 + size ∨ f 4 2 ∉ [0x100, 0x200] ∨ f 6 2 ∉ [1, 2, 3, 4] then none
      else certificates? bytes fuel (PeSection.roundUp 8 (offset + 8 + size)) stop

/-- Read the directory of certificates, whose address is an offset. -/
def certificateTable? (bytes : List UInt8) (offset size : Nat) : Option Unit :=
  if bytes.length < offset + size then none
  else certificates? bytes (bytes.length + 1) offset (offset + size)

/-- Read the record of debug information at an offset. If it leads to the name of a database, the
name has to lie in the file. -/
def debug? (bytes : List UInt8) (offset : Nat) : Option Unit := do
  let f := field .little (← record? bytes offset 28)
  if f 12 4 = 2 then
    let size := (f 16 4).toNat
    let start := (f 24 4).toNat
    if size < 24 then none
    if (← number? .little bytes start 4) = 0x53445352 then
      let _ ← record? bytes (start + 4) (size - 4)

/-- Read all directories; exceptions are looked at for one machine only. -/
def directories? (o : PeOptional) (bytes : List UInt8) (sections : List PeSection)
    (withExceptions : Bool) : Option Unit := do
  let offsetOf? := PeSection.offsetOf? o.alignment sections
  match o.directory? 1 with
  | none => pure ()
  | some (address, _) => o.libraries? bytes sections (bytes.length + 1) (← offsetOf? address)
  match o.directory? 6 with
  | none => pure ()
  | some (address, _) => debug? bytes (← offsetOf? address)
  match if withExceptions then o.directory? 3 else none with
  | none => pure ()
  | some (address, size) =>
    if size % 12 ≠ 0 ∨ (← offsetOf? address) % 4 ≠ 0 then none
  match o.directory? 4 with
  | none => pure ()
  | some (offset, size) => certificateTable? bytes offset size

end PeOptional
end SliceRecovery.ObjectFile
