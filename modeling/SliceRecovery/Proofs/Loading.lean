import SliceRecovery.Proofs.Contents
import SliceRecovery.Proofs.LoadedRegions

/-!
# SliceRecovery.Proofs.Loading -- the loaded memory is that of the file

Offset, size in the file, size in memory and length of the file are four numbers that have nothing
to do with each other, and what backs a segment is cut to them when it is loaded and once more when
it is read. Here both cuts are put together: an address of a segment holds the byte of the file at
the same offset, or zero where the part of the file or the file itself has ended. Nothing is assumed
of the values in the headers; the file has to have a length that is a word.
-/

namespace SliceRecovery

/-- The addresses of a region are those at the offsets below its size. -/
theorem Region.toNat_start_add {r : Region} {i : Nat} (hi : i < r.size.toNat) :
    (r.start + .ofNat i).toNat = r.start.toNat + i ∧ r.start.toNat + i < r.stop.toNat := by
  have hlt := r.stop.toNat_lt
  rw [size, Word.toNat_subFloored] at hi
  exact ⟨Word.toNat_add_ofNat (by unfold Word.span; omega), by omega⟩

theorem Region.contains_start_add {r : Region} {i : Nat} (hi : i < r.size.toNat) :
    r.contains (r.start + .ofNat i) = true := by
  obtain ⟨haddr, hlt⟩ := toNat_start_add hi
  rw [contains_iff, UInt64.le_iff_toNat_le, UInt64.lt_iff_toNat_lt, haddr]
  exact ⟨Nat.le_add_right _ _, hlt⟩

/-- Where segments are apart, a read of one byte of a segment gives that byte. -/
theorem Memory.read_start_add {segments : List Segment} {s : Segment} {i : Nat}
    (hapart : Apart segments) (hs : s ∈ segments) (hi : i < s.region.size.toNat) :
    read segments (s.region.start + .ofNat i) 1 =
      some [s.byteAt (s.region.start + .ofNat i)] := by
  obtain ⟨haddr, hlt⟩ := Region.toNat_start_add hi
  have hspan := s.region.stop.toNat_lt
  refine (read_eq_some_iff hapart (by decide)).mpr ⟨?_, rfl, ?_⟩
  · rw [haddr, UInt64.toNat_one, Word.span]
    omega
  · intro j hj
    obtain rfl : j = 0 := Nat.lt_one_iff.mp hj
    rw [show UInt64.ofNat 0 = 0 from rfl, UInt64.add_zero]
    exact byte?_eq hapart hs (Region.contains_start_add hi)

namespace ObjectFile

/-! ## Segments -/

namespace LoadEntry

variable {x : LoadEntry} {bytes : List UInt8} {s : Segment}

/-- The byte that a file has for an offset of a range: the one at that offset of the part of the
file, or zero where the part or the file has ended. -/
def byteAt (bytes : List UInt8) (x : LoadEntry) (i : Nat) : UInt8 :=
  if i < x.fileSize.toNat ∧ i < x.memorySize.toNat then bytes.getD (x.fileOffset.toNat + i) 0 else 0

/-- The part of the file with which a range is loaded, byte by byte. -/
theorem getD_backing (hlen : bytes.length < Word.span) (x : LoadEntry) (i : Nat) :
    (backing bytes x.fileOffset x.fileSize x.memorySize).getD i 0 = x.byteAt bytes i := by
  rw [List.getD_eq_getElem?_getD, getElem?_backing hlen, byteAt, List.getD_eq_getElem?_getD]
  split <;> rfl

/-- The bytes that are cut out of a file for a range, if both ends of the cut are in the file. -/
def cut? (bytes : List UInt8) (x : LoadEntry) : Option (List UInt8) :=
  ObjectFile.cut? bytes (min x.fileOffset.toNat bytes.length)
    (min (backingEnd x.fileOffset x.fileSize x.memorySize).toNat bytes.length)

section Loaded

variable (hs : x.segment? bytes = some s)
include hs

theorem lt_of_segment? : s.region.start < s.region.stop := by
  obtain ⟨stop, hpos, hstop, rfl⟩ := segment?_eq_some_iff.mp hs
  exact (lt_iff_size_pos hstop).mpr hpos

theorem toNat_size_of_segment? : s.region.size.toNat = x.memorySize.toNat := by
  obtain ⟨stop, -, hstop, rfl⟩ := segment?_eq_some_iff.mp hs
  rw [Region.size, Word.toNat_subFloored]
  exact Nat.sub_eq_of_eq_add' hstop.symm

theorem length_bytes_le_of_segment? : s.bytes.length ≤ s.region.size.toNat := by
  rw [toNat_size_of_segment? hs]
  obtain ⟨stop, -, -, rfl⟩ := segment?_eq_some_iff.mp hs
  exact length_backing_le ..

theorem byteAt_of_segment? (hlen : bytes.length < Word.span) {i : Nat}
    (hi : i < s.region.size.toNat) :
    s.byteAt (s.region.start + .ofNat i) = x.byteAt bytes i := by
  have haddr := (Region.toNat_start_add hi).1
  obtain ⟨stop, -, -, rfl⟩ := segment?_eq_some_iff.mp hs
  unfold Segment.byteAt
  rw [haddr, Nat.add_sub_cancel_left]
  exact x.getD_backing hlen i

end Loaded

end LoadEntry

/-! ## Memory -/

/-- **The loaded memory is that of the file.** Let the headers be any. The segments are those of
their entries, in order. Every cut has both ends in the file, every region holds an address, and no
segment is backed by more bytes than it has addresses. An analysis that takes the memory view over,
its segments being apart, reads at each offset of a segment the byte of the file at that offset of
the entry's part, as long as the offset is below both sizes of the entry and the file has not ended,
and zero otherwise. -/
theorem load_faithful {bytes : List UInt8} (hlen : bytes.length < Word.span) :
    (∀ i, load bytes = .ok i → ∃ f : Headers, i = f.image bytes) ∧
    ∀ f : Headers,
      (f.image bytes).segments = f.entries.filterMap (LoadEntry.segment? bytes) ∧
      (∀ x ∈ f.entries,
        x.cut? bytes = some (backing bytes x.fileOffset x.fileSize x.memorySize)) ∧
      (∀ r ∈ (f.image bytes).regions, r.start < r.stop) ∧
      (∀ s ∈ (f.image bytes).segments, s.bytes.length ≤ s.region.size.toNat) ∧
      ∀ h : Analysis, Memory.Apart (f.image bytes).segments →
        ∀ x ∈ f.entries, ∀ s, x.segment? bytes = some s → ∀ i < s.region.size.toNat,
          (h.withImage (f.image bytes)).read (s.region.start + .ofNat i) 1 =
            .ok [x.byteAt bytes i] := by
  refine ⟨fun i => exists_headers_of_load, fun f => ⟨f.segments_image bytes, ?_, ?_, ?_, ?_⟩⟩
  · exact fun x _ => cut?_backing bytes x.fileOffset x.fileSize x.memorySize
  · intro r hr
    rcases List.mem_append.mp hr with hr | hr
    · obtain ⟨s, hs, rfl⟩ := List.mem_map.mp hr
      obtain ⟨x, -, hx⟩ := f.exists_entry hs
      exact LoadEntry.lt_of_segment? hx
    · exact f.lt_of_mem_sections hr
  · intro s hs
    obtain ⟨x, -, hx⟩ := f.exists_entry hs
    exact LoadEntry.length_bytes_le_of_segment? hx
  · intro h hapart x hx s hs i hi
    have hmem : s ∈ (f.image bytes).segments := by
      rw [f.segments_image]
      exact List.mem_filterMap.mpr ⟨x, hx, hs⟩
    rw [← LoadEntry.byteAt_of_segment? hs hlen hi]
    exact Analysis.read_eq_ok_iff.mpr (Memory.read_start_add hapart hmem hi)

/-- A program header to load that can be read, with the offset and the size in the file and the
address and the size in memory. -/
def readableProgram (offset fileSize address memorySize : UInt64) : ProgramHeader :=
  ⟨1, 4, offset, address, fileSize, memorySize⟩

/-- Three parts of a file of eight bytes: one is shorter than its segment, one is cut short by the
end of the file, and one lies past it. -/
def scatteredParts : Headers :=
  .elf {
    wide := true, order := .little, kind := 2, machine := 62, sections := [], names := []
    programs := [
      readableProgram 2 3 0x1000 6, readableProgram 6 Word.top 0x2000 4,
      readableProgram Word.top Word.top 0x3000 2] }

theorem loaded_scatteredParts :
    let file : List UInt8 := [1, 2, 3, 4, 5, 6, 7, 8]
    let h := Analysis.withImage {} (scatteredParts.image file)
    file.length < Word.span ∧ Memory.Apart (scatteredParts.image file).segments ∧
      h.read 0x1002 1 = .ok [5] ∧ h.read 0x1003 1 = .ok [0] ∧
      h.read 0x2001 1 = .ok [8] ∧ h.read 0x2002 1 = .ok [0] ∧ h.read 0x3000 1 = .ok [0] := by
  intro file h
  have hlen : file.length < Word.span := by decide
  have hapart : Memory.Apart (scatteredParts.image file).segments := by
    unfold Memory.Apart
    decide
  obtain ⟨-, -, -, -, hread⟩ := (load_faithful hlen).2 scatteredParts
  have hread := hread {} hapart
  have hfirst := hread _ (.head _) _ rfl
  have hsecond := hread _ (.tail _ (.head _)) _ rfl
  have hthird := hread _ (.tail _ (.tail _ (.head _))) _ rfl
  exact ⟨hlen, hapart, hfirst 2 (by decide), hfirst 3 (by decide), hsecond 1 (by decide),
    hsecond 2 (by decide), hthird 0 (by decide)⟩

end ObjectFile
end SliceRecovery
