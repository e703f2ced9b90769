import SliceRecovery.ObjectFile.ElfHeader

/-!
# SliceRecovery.ObjectFile.ElfLinkage -- what an ELF file holds for the linker

Symbols, relocations, version records and the dynamic section have no place in memory of their own,
but a file in which one of them runs past the end of the file is malformed. Addresses in the dynamic
section are turned into offsets by the loadable program headers; an address that no such header
covers counts as offset zero.
-/

namespace SliceRecovery.ObjectFile

/-- The headers of an ELF file that lead to its tables for the linker. -/
structure ElfLinkage where
  wide : Bool
  order : ByteOrder
  machine : UInt64
  programs : List ProgramHeader
  sections : List SectionHeader

namespace ElfLinkage

/-- The offset of an address in the file. -/
def offsetOf? (e : ElfLinkage) (address : UInt64) : Option UInt64 := do
  let h ← e.programs.find? fun h =>
    h.isLoadable && h.address ≤ address && address - h.address < h.memorySize
  Word.add? h.offset (address - h.address)

/-! ## Symbols and relocations -/

/-- Size of a symbol. -/
def symbolSize (e : ElfLinkage) : Nat := if e.wide then 24 else 16

/-- A table of so many symbols. -/
def symbols? (e : ElfLinkage) (bytes : List UInt8) (offset count : Nat) : Option (List UInt8) :=
  part? bytes offset (count * e.symbolSize)

/-- The bytes of a table of relocations. -/
def relocations? (bytes : List UInt8) (offset size : Nat) : Option (List UInt8) :=
  if size = 0 then some [] else part? bytes offset size

/-- Size of a relocation, which may hold an addend. -/
def relocationSize (e : ElfLinkage) (addend : Bool) : Nat :=
  if e.wide then if addend then 24 else 16 else if addend then 12 else 8

/-- The largest symbol that a table of relocations names. -/
def largestSymbol (e : ElfLinkage) (addend : Bool) (part : List UInt8) : Nat :=
  let size := e.relocationSize addend
  let records := (table? part 0 size (part.length / size)).getD []
  records.foldl (fun n r =>
    max n (if e.wide then (field e.order r 8 8 >>> 32).toNat else (field e.order r 4 4 >>> 8).toNat)) 0

/-! ## The dynamic section -/

/-- The tags and values of a dynamic section, up to the entry that ends it. -/
def entries (e : ElfLinkage) (part : List UInt8) : List (UInt64 × UInt64) :=
  let w : Nat := if e.wide then 8 else 4
  let records := (table? part 0 (2 * w) (part.length / (2 * w))).getD []
  (records.map fun r => (field e.order r 0 w, field e.order r w w)).takeWhile (·.1 ≠ 0)

/-- The value of the last entry with a tag. -/
def value? (entries : List (UInt64 × UInt64)) (tag : UInt64) : Option UInt64 :=
  entries.reverse.lookup tag

/-- The number in an entry, zero without one. -/
def number (entries : List (UInt64 × UInt64)) (tag : UInt64) : Nat :=
  ((value? entries tag).getD 0).toNat

/-- The offset that an entry with an address leads to, zero without one. -/
def offset (e : ElfLinkage) (entries : List (UInt64 × UInt64)) (tag : UInt64) : Nat :=
  (((value? entries tag).bind e.offsetOf?).getD 0).toNat

/-- The number of symbols by a hash table: the number of its chains. -/
def hashedSymbols? (e : ElfLinkage) (bytes : List UInt8) (offset : Nat) : Option Nat :=
  number? e.order bytes (offset + 4) (if e.wide && (e.machine == 0x9026 || e.machine == 22) then 8 else 4)

/-- The number of the last symbol in a chain, whose words are marked at the end. -/
def chainEnd? (e : ElfLinkage) (bytes : List UInt8) : (fuel offset symbol : Nat) → Option Nat
  | 0, _, _ => none
  | fuel + 1, offset, symbol => do
    let hash ← number? e.order bytes offset 4
    if hash % 2 = 1 then some (symbol + 1) else chainEnd? e bytes fuel (offset + 4) (symbol + 1)

/-- The number of symbols by the second kind of hash table: the chain that starts last is followed
to its end. -/
def chainedSymbols? (e : ElfLinkage) (bytes : List UInt8) (offset : Nat) : Option Nat := do
  let buckets ← number? e.order bytes offset 4
  let first ← number? e.order bytes (offset + 4) 4
  let filter ← number? e.order bytes (offset + 8) 4
  if buckets = 0 ∨ first = 0 ∨ filter = 0 then none
  let start := offset + 16 + filter * if e.wide then 8 else 4
  let chains ← table? bytes start 4 buckets
  let last := (chains.map (Memory.ofBytes e.order)).foldl max 0
  if last < first then some 0
  else chainEnd? e bytes (bytes.length + 1) (start + 4 * (buckets + (last - first))) last

/-- The number of symbols that a dynamic section speaks of. -/
def dynamicSymbols? (e : ElfLinkage) (bytes : List UInt8) (entries : List (UInt64 × UInt64)) :
    Option Nat :=
  match (value? entries 0x6FFFFEF5).bind e.offsetOf? with
  | some offset => e.chainedSymbols? bytes offset.toNat
  | none =>
    match (value? entries 4).bind e.offsetOf? with
    | some offset => e.hashedSymbols? bytes offset.toNat
    | none => some 0

/-- Read what a dynamic section leads to: texts, three tables of relocations, and symbols. -/
def dynamic? (e : ElfLinkage) (bytes : List UInt8) (h : ProgramHeader) : Option Unit := do
  let part ← if h.fileSize = 0 then some [] else part? bytes h.offset.toNat h.fileSize.toNat
  let entries := e.entries part
  let _ ← texts? bytes (e.offset entries 5) (number entries 10)
  let tables : List (Bool × Nat × Nat) := [
    (true, e.offset entries 7, number entries 8),
    (false, e.offset entries 17, number entries 18),
    (number entries 20 = 7, e.offset entries 23, number entries 2)]
  let symbols ← tables.mapM fun (addend, offset, size) =>
    (relocations? bytes offset size).map (e.largestSymbol addend)
  let largest := symbols.foldl max 0
  let count ← e.dynamicSymbols? bytes entries
  let count := if largest = 0 then count else max count (largest + 1)
  let _ ← e.symbols? bytes (e.offset entries 6) count

/-! ## Sections -/

/-- Read the symbols that the sections speak of: the last table of symbols and its texts. -/
def sectionSymbols? (e : ElfLinkage) (bytes : List UInt8) : Option Unit := do
  match e.sections.reverse.find? (·.kind == 2) with
  | none => return
  | some h =>
    let _ ← e.symbols? bytes h.offset.toNat (h.size.toNat / h.entrySize.toNat)
    let _ ← SectionHeader.textsAt? bytes e.sections h.link.toNat

/-- Read a section of relocations; other sections need not be read. -/
def sectionRelocations? (bytes : List UInt8) (h : SectionHeader) : Option Unit := do
  if h.kind = 4 ∨ h.kind = 9 then
    if !h.fits bytes then none
    let _ ← relocations? bytes h.offset.toNat h.size.toNat

/-- Read the first section of a kind of version records, with its texts where it has some. -/
def versions? (e : ElfLinkage) (bytes : List UInt8) (kind : UInt64) (texts : Bool) :
    Option Unit := do
  match e.sections.find? (·.kind == kind) with
  | none => return
  | some h =>
    if texts then
      let _ ← (← e.sections[h.link.toNat]?).texts? bytes
    let _ ← part? bytes h.offset.toNat h.size.toNat

/-- Read all tables for the linker. -/
def tables? (e : ElfLinkage) (bytes : List UInt8) : Option Unit := do
  e.sectionSymbols? bytes
  match e.programs.find? (·.kind == 2) with
  | none => pure ()
  | some h => e.dynamic? bytes h
  e.sections.forM (sectionRelocations? bytes)
  e.versions? bytes 0x6FFFFFFF false
  e.versions? bytes 0x6FFFFFFD true
  e.versions? bytes 0x6FFFFFFE true

end ElfLinkage
end SliceRecovery.ObjectFile
