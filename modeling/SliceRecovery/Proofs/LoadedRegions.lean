import SliceRecovery.ObjectFile.Load
import SliceRecovery.Proofs.Snapshots

/-!
# SliceRecovery.Proofs.LoadedRegions -- what the headers of a file make of memory

Three formats describe segments in four kinds of entries: program headers, allocated sections of
ELF files, sections of PE files and segments of Mach-O files. All of them come to a range of memory
and a part of the file, so the segments of a file of any format are one list of such entries
(`Headers.segments_image`).

The range is a region just when it is not empty and ends at a word. The part is cut short three
times, by the size in memory, by the largest word and by the end of the file, and the order of the
cuts is no matter: byte by byte, what is left is the file below both sizes.
-/

namespace SliceRecovery

theorem Region.toOption_validated_eq_some_iff {r x : Region} :
    r.validated.toOption = some x ↔ r.start < r.stop ∧ x = r := by
  rw [validated_eq]
  split
  · rename_i h
    exact ⟨fun hx => ⟨h, (Option.some.inj hx).symm⟩, fun hx => congrArg some hx.2.symm⟩
  · rename_i h
    exact iff_of_false (fun hx => nomatch hx) fun hx => h hx.1

namespace ObjectFile

variable {start size : UInt64} {bytes : List UInt8}

/-! ## Ranges of memory -/

/-- The region of a segment. -/
def segmentRegion (name : Option String) (start stop : Address) (p : Permissions) : Region where
  start
  stop
  kind := .segment
  name
  readable := p.readable
  writable := p.writable
  executable := p.executable

/-- The region of a section. -/
def sectionRegion (name : String) (start stop : Address) (use : SectionUse) : Region where
  start
  stop
  kind := .sectionEntry
  name := some name
  readable := true
  writable := use = .readWriteData
  executable := use = .readOnlyCode
  use := some use

/-- A range that ends at a word holds an address just when its size is not zero. -/
theorem lt_iff_size_pos {stop : Address} (hstop : start.toNat + size.toNat = stop.toNat) :
    start < stop ↔ 0 < size := by
  rw [UInt64.lt_iff_toNat_lt, UInt64.lt_iff_toNat_lt, UInt64.toNat_zero]
  omega

theorem segment?_eq_some_iff {name : Option String} {p : Permissions} {s : Segment} :
    segment? name start size p bytes = some s ↔
      ∃ stop, 0 < size ∧ start.toNat + size.toNat = stop.toNat ∧
        s = ⟨segmentRegion name start stop p, bytes⟩ := by
  constructor
  · intro hs
    obtain ⟨stop, hstop, hs⟩ := Option.bind_eq_some_iff.mp hs
    obtain ⟨r, hr, hs⟩ := Option.bind_eq_some_iff.mp hs
    obtain ⟨hlt, rfl⟩ := Region.toOption_validated_eq_some_iff.mp hr
    rw [Word.add?_eq_some_iff] at hstop
    cases hs
    exact ⟨stop, (lt_iff_size_pos hstop).mp hlt, hstop, rfl⟩
  · rintro ⟨stop, hpos, hstop, rfl⟩
    refine Option.bind_eq_some_iff.mpr ⟨stop, Word.add?_eq_some_iff.mpr hstop, ?_⟩
    refine Option.bind_eq_some_iff.mpr ⟨_, Region.toOption_validated_eq_some_iff.mpr ⟨?_, rfl⟩, rfl⟩
    exact (lt_iff_size_pos hstop).mpr hpos

theorem section?_eq_some_iff {name : String} {use : SectionUse} {r : Region} :
    ObjectFile.section? name start size use = some r ↔
      ∃ stop, 0 < size ∧ start.toNat + size.toNat = stop.toNat ∧
        r = sectionRegion name start stop use := by
  constructor
  · intro hr
    obtain ⟨stop, hstop, hr⟩ := Option.bind_eq_some_iff.mp hr
    obtain ⟨hlt, rfl⟩ := Region.toOption_validated_eq_some_iff.mp hr
    rw [Word.add?_eq_some_iff] at hstop
    exact ⟨stop, (lt_iff_size_pos hstop).mp hlt, hstop, rfl⟩
  · rintro ⟨stop, hpos, hstop, rfl⟩
    refine Option.bind_eq_some_iff.mpr ⟨stop, Word.add?_eq_some_iff.mpr hstop, ?_⟩
    exact Region.toOption_validated_eq_some_iff.mpr ⟨(lt_iff_size_pos hstop).mpr hpos, rfl⟩

/-! ## Parts of the file -/

section Backing

variable {offset fileSize memorySize : UInt64}

/-- The bytes of a file from one index up to another, which both have to be indices of the file or
its end, in this order. -/
def cut? (bytes : List UInt8) (lo hi : Nat) : Option (List UInt8) :=
  if lo ≤ hi ∧ hi ≤ bytes.length then some ((bytes.drop lo).take (hi - lo)) else none

theorem toNat_ite_le (a b : UInt64) : (if a ≤ b then a else b).toNat = min a.toNat b.toNat := by
  split
  · rename_i h
    have := UInt64.le_iff_toNat_le.mp h
    omega
  · rename_i h
    have := UInt64.lt_iff_toNat_lt.mp (UInt64.not_le.mp h)
    omega

/-- Where the part of the file behind a range of memory ends, before the end of the file counts. -/
def backingEnd (offset fileSize memorySize : UInt64) : UInt64 :=
  Word.addCapped offset (if fileSize ≤ memorySize then fileSize else memorySize)

theorem backing_eq (bytes : List UInt8) (offset fileSize memorySize : UInt64) :
    backing bytes offset fileSize memorySize =
      (bytes.drop offset.toNat).take
        ((backingEnd offset fileSize memorySize).toNat - offset.toNat) :=
  rfl

theorem toNat_backingEnd (offset fileSize memorySize : UInt64) :
    (backingEnd offset fileSize memorySize).toNat =
      min (offset.toNat + min fileSize.toNat memorySize.toNat) (Word.span - 1) := by
  unfold backingEnd
  rw [Word.toNat_addCapped, toNat_ite_le]

/-- Indices past the end of a list cut out what the end of the list does. -/
theorem take_drop_min (bytes : List UInt8) {lo hi : Nat} (hle : lo ≤ hi) :
    (bytes.drop (min lo bytes.length)).take (min hi bytes.length - min lo bytes.length) =
      (bytes.drop lo).take (hi - lo) := by
  apply List.ext_getElem?
  intro i
  rw [List.getElem?_take, List.getElem?_take, List.getElem?_drop, List.getElem?_drop]
  by_cases hin : lo + i < bytes.length
  · have hlo : min lo bytes.length = lo := by omega
    rw [hlo]
    by_cases hend : i < hi - lo
    · rw [if_pos (by omega), if_pos hend]
    · rw [if_neg (by omega), if_neg hend]
  · rw [if_neg (by omega), List.getElem?_eq_none (by omega), ite_self]

/-- The part lies in the file: it is cut out between two indices of the file. -/
theorem cut?_backing (bytes : List UInt8) (offset fileSize memorySize : UInt64) :
    cut? bytes (min offset.toNat bytes.length)
        (min (backingEnd offset fileSize memorySize).toNat bytes.length) =
      some (backing bytes offset fileSize memorySize) := by
  have hspan := offset.toNat_lt
  have hle : offset.toNat ≤ (backingEnd offset fileSize memorySize).toNat := by
    rw [toNat_backingEnd, Word.span]
    omega
  unfold cut?
  rw [if_pos ⟨by omega, Nat.min_le_right _ _⟩, take_drop_min bytes hle, backing_eq]

/-- The part is never longer than the range of memory. -/
theorem length_backing_le (bytes : List UInt8) (offset fileSize memorySize : UInt64) :
    (backing bytes offset fileSize memorySize).length ≤ memorySize.toNat := by
  rw [backing_eq, toNat_backingEnd, List.length_take]
  omega

/-- That the part is not longer than the range can be seen to beforehand. -/
theorem backing_min (bytes : List UInt8) (offset fileSize memorySize : UInt64) :
    backing bytes offset (if fileSize ≤ memorySize then fileSize else memorySize) memorySize =
      backing bytes offset fileSize memorySize := by
  rw [backing_eq, backing_eq, toNat_backingEnd, toNat_backingEnd, toNat_ite_le, Nat.min_assoc,
    Nat.min_self]

/-- The part byte by byte. -/
theorem getElem?_backing (hlen : bytes.length < Word.span) (i : Nat) :
    (backing bytes offset fileSize memorySize)[i]? =
      if i < fileSize.toNat ∧ i < memorySize.toNat then bytes[offset.toNat + i]? else none := by
  rw [backing_eq, toNat_backingEnd, List.getElem?_take, List.getElem?_drop]
  by_cases hfile : offset.toNat + i < bytes.length
  · by_cases hsize : i < fileSize.toNat ∧ i < memorySize.toNat
    · rw [if_pos hsize, if_pos (by omega)]
    · rw [if_neg hsize, if_neg (by omega)]
  · rw [List.getElem?_eq_none (by omega), ite_self, ite_self]

end Backing

/-! ## Entries of headers -/

/-- The headers of a file of a format that has a memory view. -/
inductive Headers
  | elf (e : Elf)
  | pe (p : Pe)
  | machO (m : MachO)

/-- What an entry of the headers says of a segment: its range of memory and its part of the file. -/
structure LoadEntry where
  name : Option String
  address : UInt64
  memorySize : UInt64
  fileOffset : UInt64
  fileSize : UInt64
  permissions : Permissions

namespace LoadEntry

/-- The segment of an entry, if its range is a region. -/
def segment? (bytes : List UInt8) (x : LoadEntry) : Option Segment :=
  ObjectFile.segment? x.name x.address x.memorySize x.permissions
    (backing bytes x.fileOffset x.fileSize x.memorySize)

/-- The range of the entry is a region. -/
def HasRange (x : LoadEntry) : Prop :=
  0 < x.memorySize ∧ x.address.toNat + x.memorySize.toNat < Word.span

instance : DecidablePred HasRange := fun x =>
  inferInstanceAs (Decidable (0 < x.memorySize ∧ x.address.toNat + x.memorySize.toNat < Word.span))

theorem isSome_segment? (bytes : List UInt8) (x : LoadEntry) :
    (x.segment? bytes).isSome ↔ x.HasRange := by
  rw [Option.isSome_iff_exists]
  unfold segment? HasRange
  simp only [segment?_eq_some_iff]
  constructor
  · rintro ⟨_, stop, hpos, hstop, -⟩
    exact ⟨hpos, by rw [hstop]; exact stop.toNat_lt⟩
  · rintro ⟨hpos, hlt⟩
    exact ⟨_, .ofNat _, hpos, (UInt64.toNat_ofNat_of_lt' hlt).symm, rfl⟩

end LoadEntry

/-- The entry of a program header. -/
def ProgramHeader.entry (h : ProgramHeader) : LoadEntry :=
  ⟨none, h.address, h.memorySize, h.offset, h.fileSize, h.permissions⟩

/-- The entry of a section header with the address of its section. -/
def Elf.sectionEntry (e : Elf) (p : SectionHeader × Address) : LoadEntry where
  name := some (e.nameOf p.1)
  address := p.2
  memorySize := p.1.size
  fileOffset := p.1.offset
  fileSize := if p.1.isUnbacked then 0 else p.1.size
  permissions := ⟨true, p.1.isWritable, p.1.isExecutable⟩

/-- The entry of a section of an image with a base. -/
def PeSection.entry (base : UInt64) (s : PeSection) : LoadEntry :=
  ⟨some s.name, Word.addCapped base s.address, s.size, s.fileOffset, s.fileSize, s.permissions⟩

/-- The entry of a segment of a Mach-O file. -/
def MachSegment.entry (s : MachSegment) : LoadEntry :=
  ⟨some s.name, s.address, s.memorySize, s.fileOffset, s.fileSize, s.permissions⟩

/-- The entries of the program headers to load. -/
def Elf.programEntries (e : Elf) : List LoadEntry :=
  (e.programs.filter ProgramHeader.isLoadable).map ProgramHeader.entry

namespace Headers

variable {f : Headers} {bytes : List UInt8}

/-- The memory view of a file with the given headers. -/
def image (bytes : List UInt8) : Headers → ObjectImage
  | elf e => e.image bytes
  | pe p => p.image bytes
  | machO m => m.image bytes

/-- The entries for segments. Sections of an ELF file have segments of their own if it is
relocatable or no program header gives one. -/
def entries : Headers → List LoadEntry
  | elf e =>
    e.programEntries ++
      if e.isRelocatable ∨ ∀ x ∈ e.programEntries, ¬ x.HasRange then e.placed.map e.sectionEntry
      else []
  | pe p => p.sections.map (PeSection.entry p.imageBase)
  | machO m => m.segments.map MachSegment.entry

theorem segments_image (f : Headers) (bytes : List UInt8) :
    (f.image bytes).segments = f.entries.filterMap (LoadEntry.segment? bytes) := by
  cases f with
  | elf e =>
    have hprograms : e.programEntries.filterMap (LoadEntry.segment? bytes) =
        (e.programs.filter ProgramHeader.isLoadable).filterMap (ProgramHeader.segment? bytes) :=
      List.filterMap_map
    have hsections : (e.placed.map e.sectionEntry).filterMap (LoadEntry.segment? bytes) =
        e.placed.filterMap fun p => e.sectionSegment? bytes p.1 p.2 :=
      List.filterMap_map
    have hnone : (e.programEntries.filterMap (LoadEntry.segment? bytes)).isEmpty = true ↔
        ∀ x ∈ e.programEntries, ¬ x.HasRange := by
      simp only [List.isEmpty_iff, List.filterMap_eq_nil_iff, ← LoadEntry.isSome_segment? bytes,
        Option.not_isSome_iff_eq_none]
    rw [hprograms] at hnone
    unfold image Elf.image entries
    rw [List.filterMap_append, hprograms]
    simp only [Bool.or_eq_true, hnone]
    split
    · rw [hsections]
    · rfl
  | pe p =>
    show p.sections.filterMap (PeSection.segment? p.imageBase bytes) = _
    rw [entries, List.filterMap_map]
    congr 1
    funext x
    unfold PeSection.segment?
    rw [backing_min]
    rfl
  | machO m =>
    show m.segments.filterMap (MachSegment.segment? bytes) = _
    rw [entries, List.filterMap_map]
    rfl

theorem exists_entry {s : Segment} (hs : s ∈ (f.image bytes).segments) :
    ∃ x ∈ f.entries, x.segment? bytes = some s := by
  rw [segments_image] at hs
  exact List.mem_filterMap.mp hs

/-- Every section is the region of a range. -/
theorem exists_section? {r : Region} (hr : r ∈ (f.image bytes).sections) :
    ∃ name start size use, section? name start size use = some r := by
  cases f with
  | elf e =>
    obtain ⟨p, -, hr⟩ := List.mem_filterMap.mp hr
    exact ⟨_, _, _, _, hr⟩
  | pe p =>
    obtain ⟨x, -, hr⟩ := List.mem_filterMap.mp hr
    exact ⟨_, _, _, _, hr⟩
  | machO m =>
    obtain ⟨x, -, hr⟩ := List.mem_flatMap.mp hr
    obtain ⟨t, -, hr⟩ := List.mem_filterMap.mp hr
    exact ⟨_, _, _, _, hr⟩

theorem lt_of_mem_sections {r : Region} (hr : r ∈ (f.image bytes).sections) : r.start < r.stop := by
  obtain ⟨name, start, size, use, hr⟩ := f.exists_section? hr
  obtain ⟨stop, hpos, hstop, rfl⟩ := section?_eq_some_iff.mp hr
  exact (lt_iff_size_pos hstop).mpr hpos

end Headers

theorem eq_of_map_orMalformed {α : Type} {o : Option α} {f : α → ObjectImage} {i : ObjectImage}
    (h : (orMalformed o).map f = .ok i) : ∃ a, i = f a := by
  cases o with
  | none => cases h
  | some a =>
    cases h
    exact ⟨a, rfl⟩

/-- Of whatever format a file is, its memory view is that of some headers. -/
theorem exists_headers_of_load {i : ObjectImage} (hi : load bytes = .ok i) :
    ∃ f : Headers, i = f.image bytes := by
  unfold load at hi
  dsimp only at hi
  split at hi
  · cases hi
  split at hi
  · obtain ⟨e, rfl⟩ := eq_of_map_orMalformed hi
    exact ⟨.elf e, rfl⟩
  split at hi
  · cases hi
  split at hi
  · obtain ⟨p, rfl⟩ := eq_of_map_orMalformed hi
    exact ⟨.pe p, rfl⟩
  split at hi
  · cases hi
  split at hi
  · cases hi
  split at hi
  · obtain ⟨m, rfl⟩ := eq_of_map_orMalformed hi
    exact ⟨.machO m, rfl⟩
  · cases hi

end ObjectFile
end SliceRecovery
