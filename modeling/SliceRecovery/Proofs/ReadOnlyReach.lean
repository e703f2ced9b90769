import SliceRecovery.Proofs.Account
import SliceRecovery.Proofs.Reading

/-!
# SliceRecovery.Proofs.ReadOnlyReach -- how far a recovered string reaches

A scan asks of a pointer that the address it stores is read-only, and asks nothing of the addresses
after it. The read that follows goes on through segments that abut, whatever may be done with them,
and a section that is tagged read-only may end in the middle of a segment. So a recovered string
starts in read-only memory and lies in mapped memory throughout, but it may leave read-only memory
at the end of the region in which it starts. `crossingStrings` holds a string of either kind.
-/

namespace SliceRecovery

variable {config : RecoveryConfig} {cancellation : Cancellation} {arch : Architecture}
  {h i : Analysis} {limit : UInt64} {result : RunResult} {r : SliceRecord} {a : Address}

/-! ## Read-only regions -/

namespace Analysis

/-- An address lies in a segment. -/
def MappedAt (h : Analysis) (a : Address) : Prop := ∃ s ∈ h.segments, s.region.contains a = true

/-- The segments that can only be read and the sections tagged as read-only data. -/
def readOnlyRegions (h : Analysis) : List Region :=
  (WorkingSet.ofRegions h.segmentRegions h.sections).regions

theorem readOnlyAt_iff :
    h.ReadOnlyAt a ↔ ∃ region ∈ h.readOnlyRegions, region.contains a = true := by
  rw [← contains_workingSet_iff]
  exact List.any_eq_true

/-- A region that holds an address holds what follows it up to its end. -/
theorem readOnlyAt_of_lt_stop {region : Region} {b : Address} (hregion : region ∈ h.readOnlyRegions)
    (ha : region.contains a = true) (hab : a ≤ b) (hb : b < region.stop) : h.ReadOnlyAt b := by
  refine readOnlyAt_iff.mpr ⟨region, hregion, Region.contains_iff.mpr ⟨?_, hb⟩⟩
  exact UInt64.le_trans (Region.contains_iff.mp ha).1 hab

/-- Mapped memory that is not read-only belongs to a segment that is not. -/
theorem MappedAt.exists_segment (hm : h.MappedAt a) (hn : ¬ h.ReadOnlyAt a) :
    ∃ s ∈ h.segments, s.region.contains a = true ∧ s.region.isReadOnlySegment = false := by
  obtain ⟨s, hs, ha⟩ := hm
  refine ⟨s, hs, ha, ?_⟩
  apply Bool.eq_false_iff.mpr
  intro hro
  apply hn
  refine readOnlyAt_iff.mpr ⟨s.region, ?_, ha⟩
  apply List.mem_append_left
  exact List.mem_filter.mpr ⟨List.mem_map_of_mem hs, hro⟩

end Analysis

/-! ## The reach of a slice -/

namespace SliceRecord

/-- An address lies in the byte range of a slice. -/
def Covers (r : SliceRecord) (a : Address) : Prop :=
  r.dataAddress ≤ a ∧ a.toNat < r.dataAddress.toNat + r.length.toNat

/-- How far a slice of an analysis reaches. -/
structure Reach (h : Analysis) (r : SliceRecord) : Prop where
  start : h.ReadOnlyAt r.dataAddress
  /-- The range does not wrap around. -/
  bounded : r.dataAddress.toNat + r.length.toNat < Word.span
  mapped : ∀ a, r.Covers a → h.MappedAt a
  /-- Where the slice leaves read-only memory, every read-only region that holds its start has
  ended, and the memory is of a segment that can be written or executed, or not be read. -/
  leaves : ∀ a, r.Covers a → ¬ h.ReadOnlyAt a →
    (∀ region ∈ h.readOnlyRegions, region.contains r.dataAddress = true → region.stop ≤ a) ∧
      ∃ s ∈ h.segments, s.region.contains a = true ∧ s.region.isReadOnlySegment = false

end SliceRecord

/-- A candidate of `h` that is resolved later, in the same memory, reaches through mapped memory. -/
theorem PointerCandidate.reach_of_resolve {c : PointerCandidate}
    (hc : c ∈ DataRun.candidates h arch) (hi : i.segments = h.segments)
    (hr : c.resolve i arch limit = .ok r) : r.Reach h := by
  obtain ⟨-, -, -, -, hbytes, -, -, hd⟩ := resolve_eq_ok_iff.mp hr
  obtain ⟨v, -, hvc⟩ := exists_of_mem_scan hc
  obtain ⟨_, _, -, -, hset, -, -⟩ := ofVariable?_eq_some_iff.mp hvc
  rw [hi, ← hd] at hbytes
  rw [← hd] at hset
  -- the bytes were read in one go, so no address of them is unmapped
  have hmapped : ∀ a, r.Covers a → h.MappedAt a := fun a ha =>
    Memory.mapped_of_read hbytes ha.1 ha.2
  refine ⟨Analysis.contains_workingSet_iff.mp hset, Memory.end_of_read hbytes, hmapped, ?_⟩
  intro a ha hn
  refine ⟨?_, (hmapped a ha).exists_segment hn⟩
  intro region hregion hstart
  apply UInt64.not_lt.mp
  intro hlt
  exact hn (Analysis.readOnlyAt_of_lt_stop hregion hstart ha.1 hlt)

/-- **How far recovered strings reach.** Whatever the analysis, the settings and the cancellation:
every slice of a data run starts in read-only memory, lies in mapped memory as a whole, and stays
in read-only memory at least up to the end of every read-only region that holds its start. -/
theorem data_run_reach (hr : (h.recover .readOnlyData config cancellation).result = .ok result) :
    ∀ r ∈ result.slices, r.Reach h := by
  have hr : (DataRun.run config cancellation h).result = .ok result := hr
  intro r hmem
  obtain ⟨arch, -, ⟨rfl, -⟩ | ⟨vs, rest, i, j, -, hcs, ht, hres, -, -, -⟩⟩ := DataRun.run_eq_ok hr
  · cases hmem
  · rw [hres] at hmem
    -- declarations made before the candidate was resolved have not touched the memory
    obtain ⟨c, hc, k, hk, hresolve⟩ := ht.exists_of_mem_slices hcs hmem
    exact PointerCandidate.reach_of_resolve hc hk.segments_eq hresolve

/-! ## Strings that leave read-only memory -/

/-- A binary with two strings. One starts in a read-only segment of four bytes and ends in the
writable one after it, the other starts in a section of that one that is tagged read-only and ends
after the section. -/
def crossingStrings : Analysis where
  arch := some (.ofWordSize "x86_64" 8 .little)
  segments := [
    ⟨{ start := 0x1000, stop := 0x1004, readable := true }, [114, 101, 97, 100]⟩,
    ⟨{ start := 0x1004, stop := 0x1040, readable := true, writable := true },
      [45, 111, 110, 108, 121, 0, 0, 0, 0, 0, 0, 0, 116, 97, 103, 103, 101, 100]⟩,
    ⟨{ start := 0x2000, stop := 0x2020, readable := true, writable := true },
      [0x00, 0x10, 0, 0, 0, 0, 0, 0, 9, 0, 0, 0, 0, 0, 0, 0,
       0x10, 0x10, 0, 0, 0, 0, 0, 0, 6, 0, 0, 0, 0, 0, 0, 0]⟩]
  sections := [{ start := 0x1010, stop := 0x1014, kind := .sectionEntry, use := some .readOnlyData }]
  declared := .ofList [
    ⟨0x2000, .pointerTo .char 8, none, none⟩,
    ⟨0x2010, .pointerTo .char 8, none, none⟩]

theorem reach_crossingStrings :
    ∃ result, (crossingStrings.recover .readOnlyData {} none).result = .ok result ∧
      result.slices.map SliceRecord.text = ["read-only", "tagged"] ∧
      ∀ r ∈ result.slices, r.Reach crossingStrings := by
  obtain ⟨result, hr, htext⟩ :
      ∃ result, (crossingStrings.recover .readOnlyData {} none).result = .ok result ∧
        result.slices.map SliceRecord.text = ["read-only", "tagged"] :=
    ⟨_, rfl, rfl⟩
  exact ⟨result, hr, htext, data_run_reach hr⟩

/-- A recovered string need not lie in read-only memory as a whole. -/
theorem not_readOnlyAt_crossingStrings :
    ¬ ∀ result, (crossingStrings.recover .readOnlyData {} none).result = .ok result →
      ∀ r ∈ result.slices, ∀ a, r.Covers a → crossingStrings.ReadOnlyAt a := by
  intro hall
  -- the fifth byte of the first string is the first of the writable segment
  have ha : crossingStrings.ReadOnlyAt 0x1004 :=
    hall _ rfl _ List.mem_cons_self 0x1004 ⟨by decide, by decide⟩
  exact absurd ha (by decide)

end SliceRecovery
