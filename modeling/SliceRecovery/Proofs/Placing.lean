import Mathlib.Algebra.Order.Floor.Div
import SliceRecovery.Proofs.ExactWidths
import SliceRecovery.Proofs.LoadedRegions

/-!
# SliceRecovery.Proofs.Placing -- the sections of a relocatable file have places of their own

Sections of a relocatable file are laid out one after the other. The address at which the next one
may go is threaded through a rounding and two checked sums, and a section that fails one of them
leaves it as it is. `LaidOut` says what comes of that with no word arithmetic in it: every section
starts at the next multiple of its alignment from the end of the one in front of it. That the
sections are apart and ascending follows from `LaidOut` alone.

The rounding adds the alignment less one before it divides, and the sum is checked. Where the
alignment is a power of two the sum is too large only if the next multiple is
(`overflows_iff_of_isPowerOfTwo`). For other alignments a section may be left out that would have
fitted; it too moves no other.
-/

namespace SliceRecovery.ObjectFile

open TypeTable (IsRoundedUp)

/-! ## Rounding -/

theorem isRoundedUp_div {d : Nat} (hd : 0 < d) (a : Nat) :
    IsRoundedUp d a ((a + (d - 1)) / d * d) := by
  have hceil : (a + (d - 1)) / d = a ⌈/⌉ d := by
    rw [Nat.ceilDiv_eq_add_pred_div, Nat.add_sub_assoc hd]
  rw [hceil, Nat.mul_comm]
  refine ⟨⟨Nat.dvd_mul_right _ _, le_smul_ceilDiv hd⟩, ?_⟩
  rintro _ ⟨⟨q, rfl⟩, hq⟩
  exact Nat.mul_le_mul_left d ((ceilDiv_le_iff_le_smul hd).mpr hq)

theorem isRoundedUp_iff {d a b : Nat} (hd : 0 < d) :
    IsRoundedUp d a b ↔ b = (a + (d - 1)) / d * d := by
  constructor
  · exact fun h => h.unique (isRoundedUp_div hd a)
  · rintro rfl
    exact isRoundedUp_div hd a

/-- Rounding up on words is exact as long as the sum that it divides is a word. -/
theorem Elf.alignUp?_eq_some_iff {a alignment b : UInt64} :
    alignUp? a alignment = some b ↔
      a.toNat + (max alignment.toNat 1 - 1) < Word.span ∧
        IsRoundedUp (max alignment.toNat 1) a.toNat b.toNat := by
  have ha := a.toNat_lt
  rw [isRoundedUp_iff (Nat.lt_of_lt_of_le Nat.one_pos (Nat.le_max_right _ _))]
  unfold alignUp? Word.span
  split
  · rename_i h
    have h := UInt64.le_iff_toNat_le.mp h
    rw [UInt64.toNat_one] at h
    rw [Nat.max_eq_right h, Nat.div_one, Nat.mul_one, Option.some.injEq, ← UInt64.toNat_inj]
    omega
  · rename_i h
    have h := UInt64.lt_iff_toNat_lt.mp (UInt64.not_le.mp h)
    rw [UInt64.toNat_one] at h
    have hless : (alignment - 1).toNat = alignment.toNat - 1 :=
      UInt64.toNat_sub_of_le _ _ (UInt64.le_iff_toNat_le.mpr (by rw [UInt64.toNat_one]; omega))
    rw [Nat.max_eq_left (by omega), Option.map_eq_some_iff]
    simp only [Word.add?_eq_some_iff, hless, ← UInt64.toNat_inj, UInt64.toNat_mul,
      UInt64.toNat_div]
    constructor
    · rintro ⟨c, hc, hb⟩
      have hlt := c.toNat_lt
      have hle := Nat.div_mul_le_self c.toNat alignment.toNat
      rw [hc, ← hb]
      omega
    · rintro ⟨hlt, hb⟩
      have hc : (UInt64.ofNat (a.toNat + (alignment.toNat - 1))).toNat =
          a.toNat + (alignment.toNat - 1) := by
        rw [UInt64.toNat_ofNat']
        omega
      refine ⟨_, hc.symm, ?_⟩
      have hlt := b.toNat_lt
      rw [hc]
      omega

/-! ## Places -/

namespace SectionHeader

variable {h : SectionHeader} {stop start : Nat}

/-- The addresses that a section may start at are the multiples of its boundary; alignment 0 stands
for 1. -/
def boundary (h : SectionHeader) : Nat := max h.alignment.toNat 1

/-- `start` is where a section goes that follows `stop`. -/
def GoesTo (h : SectionHeader) (stop start : Nat) : Prop := IsRoundedUp h.boundary stop start

/-- There is no place for a section after `stop`: the sum that is rounded is no word, or the end of
the section is none. -/
def Overflows (h : SectionHeader) (stop : Nat) : Prop :=
  Word.span ≤ stop + (h.boundary - 1) ∨
    ∃ start, h.GoesTo stop start ∧ Word.span ≤ start + h.size.toNat

theorem size_pos (hin : h.isAllocated = true) : 0 < h.size := by
  unfold isAllocated at hin
  rw [Bool.and_eq_true] at hin
  exact UInt64.pos_iff_ne_zero.mpr (bne_iff_ne.mp hin.2)

theorem boundary_pos (h : SectionHeader) : 0 < h.boundary :=
  Nat.lt_of_lt_of_le Nat.one_pos (Nat.le_max_right _ _)

theorem exists_goesTo (h : SectionHeader) (stop : Nat) : ∃ start, h.GoesTo stop start :=
  ⟨_, isRoundedUp_div h.boundary_pos stop⟩

/-- A boundary that is a power of two divides the address space. -/
theorem boundary_dvd_span (hpow : h.boundary.isPowerOfTwo) : h.boundary ∣ Word.span := by
  obtain ⟨k, hk⟩ := hpow
  have hlt := h.alignment.toNat_lt
  have hle : 2 ^ k ≤ 2 ^ 64 := hk ▸ Nat.max_le.mpr ⟨Nat.le_of_lt hlt, by decide⟩
  rw [hk]
  exact pow_dvd_pow 2 ((Nat.pow_le_pow_iff_right (by decide)).mp hle)

/-- For an alignment that is a power of two, a section has no place just when its end would be past
the largest address. -/
theorem overflows_iff_of_isPowerOfTwo (hpow : h.boundary.isPowerOfTwo) :
    h.Overflows stop ↔ ∃ start, h.GoesTo stop start ∧ Word.span ≤ start + h.size.toNat := by
  refine ⟨?_, Or.inr⟩
  rintro (hsum | hend)
  · obtain ⟨start, hstart⟩ := h.exists_goesTo stop
    refine ⟨start, hstart, Nat.le_trans ?_ (Nat.le_add_right _ _)⟩
    -- a multiple of the boundary that is a word ends a whole boundary before the space does
    by_contra hlt
    have hle := Nat.le_of_dvd (by omega) (Nat.dvd_sub (boundary_dvd_span hpow) hstart.1.1)
    have hstop := hstart.1.2
    have hb := h.boundary_pos
    omega
  · exact hend

end SectionHeader

namespace Elf

variable {e : Elf} {h : SectionHeader} {hs before after : List SectionHeader}
  {next a stop : UInt64} {bytes : List UInt8}

theorem place?_eq_some_iff :
    place? next h = some (a, stop) ↔
      next.toNat + (h.boundary - 1) < Word.span ∧ h.GoesTo next.toNat a.toNat ∧
        a.toNat + h.size.toNat = stop.toNat := by
  rw [← and_assoc]
  refine Iff.trans ?_ (and_congr alignUp?_eq_some_iff Word.add?_eq_some_iff)
  unfold place?
  constructor
  · intro hp
    obtain ⟨b, hb, hp⟩ := Option.bind_eq_some_iff.mp hp
    obtain ⟨c, hc, hp⟩ := Option.bind_eq_some_iff.mp hp
    cases hp
    exact ⟨hb, hc⟩
  · rintro ⟨hb, hc⟩
    exact Option.bind_eq_some_iff.mpr ⟨a, hb, Option.bind_eq_some_iff.mpr ⟨stop, hc, rfl⟩⟩

theorem place?_eq_none_iff : place? next h = none ↔ h.Overflows next.toNat := by
  constructor
  · intro hnone
    by_contra hfits
    obtain ⟨start, hstart⟩ := h.exists_goesTo next.toNat
    have hsum : next.toNat + (h.boundary - 1) < Word.span :=
      Nat.lt_of_not_le fun hle => hfits (.inl hle)
    have hend : start + h.size.toNat < Word.span :=
      Nat.lt_of_not_le fun hle => hfits (.inr ⟨start, hstart, hle⟩)
    have ha : (UInt64.ofNat start).toNat = start :=
      UInt64.toNat_ofNat_of_lt' (Nat.lt_of_le_of_lt (Nat.le_add_right _ _) hend)
    have hstop := UInt64.toNat_ofNat_of_lt' hend
    have hsome : place? next h = some (.ofNat start, .ofNat (start + h.size.toNat)) :=
      place?_eq_some_iff.mpr ⟨hsum, ha.symm ▸ hstart, by rw [ha, hstop]⟩
    rw [hnone] at hsome
    cases hsome
  · intro hover
    cases hp : place? next h with
    | none => rfl
    | some p =>
      obtain ⟨hsum, ha, hstop⟩ := place?_eq_some_iff.mp hp
      rcases hover with hover | ⟨start, hstart, hover⟩
      · omega
      · have hlt := p.2.toNat_lt
        rw [hstart.unique ha, hstop] at hover
        unfold Word.span at hover
        omega

/-- What a header adds to a layout that ends at `next`: the address of its section and the end. -/
def spot? (next : UInt64) (h : SectionHeader) : Option (UInt64 × UInt64) :=
  if h.isAllocated then place? next h else none

theorem spot?_eq_some_iff :
    spot? next h = some (a, stop) ↔
      h.isAllocated = true ∧ next.toNat + (h.boundary - 1) < Word.span ∧
        h.GoesTo next.toNat a.toNat ∧ a.toNat + h.size.toNat = stop.toNat := by
  unfold spot?
  rw [Option.ite_none_right_eq_some, place?_eq_some_iff]

theorem spot?_eq_none_iff :
    spot? next h = none ↔ (h.isAllocated = true → h.Overflows next.toNat) := by
  unfold spot?
  split
  · rename_i hin
    rw [place?_eq_none_iff]
    exact ⟨fun h _ => h, fun h => h hin⟩
  · rename_i hout
    exact iff_of_true rfl fun hin => absurd hin hout

theorem layOut_cons (next : UInt64) (h : SectionHeader) (hs : List SectionHeader) :
    layOut next (h :: hs) =
      match spot? next h with
      | some (a, stop) => (h, a) :: layOut stop hs
      | none => layOut next hs := by
  rw [layOut, spot?]
  split <;> rfl

/-- Where the layout of some headers after `next` ends. -/
def stopAfter : (next : UInt64) → List SectionHeader → UInt64
  | next, [] => next
  | next, h :: hs =>
    match spot? next h with
    | some (_, stop) => stopAfter stop hs
    | none => stopAfter next hs

theorem layOut_append (next : UInt64) (xs ys : List SectionHeader) :
    layOut next (xs ++ ys) = layOut next xs ++ layOut (stopAfter next xs) ys := by
  induction xs generalizing next with
  | nil => rfl
  | cons x xs ih =>
    rw [List.cons_append, layOut_cons, layOut_cons, stopAfter]
    cases spot? next x with
    | none => exact ih next
    | some p => exact congrArg ((x, p.1) :: ·) (ih p.2)

/-- A header that adds nothing can be left out. -/
theorem layOut_skip (hspot : spot? (stopAfter next before) h = none) :
    layOut next (before ++ h :: after) = layOut next (before ++ after) := by
  rw [layOut_append, layOut_append, layOut_cons, hspot]

/-! ## Sections -/

/-- The region of the section of a header. -/
def regionOf (e : Elf) (h : SectionHeader) (start stop : Address) : Region :=
  sectionRegion (e.nameOf h) start stop (useOf h.isWritable h.isExecutable)

/-- The region of the segment that holds the section of a header. -/
def segmentOf (e : Elf) (h : SectionHeader) (start stop : Address) : Region :=
  segmentRegion (some (e.nameOf h)) start stop ⟨true, h.isWritable, h.isExecutable⟩

/-- `r` is the region of a section that follows `stop`. -/
structure Emits (e : Elf) (stop : Nat) (h : SectionHeader) (r : Region) : Prop where
  allocated : h.isAllocated = true
  start : h.GoesTo stop r.start.toNat
  stop : r.stop.toNat = r.start.toNat + h.size.toNat
  region : r = e.regionOf h r.start r.stop

/-- Sections with their headers follow each other from `stop` on. -/
inductive LaidOut (e : Elf) : Nat → List (SectionHeader × Region) → Prop
  | nil (stop : Nat) : LaidOut e stop []
  | cons {stop : Nat} {h : SectionHeader} {r : Region} {rest : List (SectionHeader × Region)} :
      e.Emits stop h r → LaidOut e r.stop.toNat rest → LaidOut e stop ((h, r) :: rest)

theorem Emits.lt {stop : Nat} {r : Region} (hr : e.Emits stop h r) : r.start < r.stop := by
  have hpos := UInt64.lt_iff_toNat_lt.mp (SectionHeader.size_pos hr.allocated)
  rw [UInt64.toNat_zero] at hpos
  exact UInt64.lt_iff_toNat_lt.mpr (by rw [hr.stop]; omega)

namespace LaidOut

variable {origin : Nat} {placed : List (SectionHeader × Region)}

/-- No section starts before the address from which they are laid out. -/
theorem le_start (hl : e.LaidOut origin placed) : ∀ p ∈ placed, origin ≤ p.2.start.toNat := by
  induction hl with
  | nil => exact fun _ hp => nomatch hp
  | @cons _ h r rest hr _ ih =>
    have hstart := hr.start.1.2
    have hstop := hr.stop
    rintro p (_ | ⟨_, hp⟩)
    · exact hstart
    · have := ih p hp
      omega

theorem ascending (hl : e.LaidOut origin placed) :
    (placed.map Prod.snd).Pairwise fun r t => r.stop ≤ t.start := by
  induction hl with
  | nil => exact .nil
  | cons hr hrest ih =>
    refine List.Pairwise.cons ?_ ih
    intro t ht
    obtain ⟨p, hp, rfl⟩ := List.mem_map.mp ht
    exact UInt64.le_iff_toNat_le.mpr (hrest.le_start p hp)

theorem lt (hl : e.LaidOut origin placed) : ∀ p ∈ placed, p.2.start < p.2.stop := by
  induction hl with
  | nil => exact fun _ hp => nomatch hp
  | cons hr _ ih => exact List.forall_mem_cons.mpr ⟨hr.lt, ih⟩

end LaidOut

section Spot

variable (hspot : spot? next h = some (a, stop))
include hspot

theorem emits_of_spot? : e.Emits next.toNat h (e.regionOf h a stop) := by
  obtain ⟨hin, -, hgoes, hstop⟩ := spot?_eq_some_iff.mp hspot
  exact ⟨hin, hgoes, hstop.symm, rfl⟩

theorem section?_of_spot? : e.section? h a = some (e.regionOf h a stop) := by
  obtain ⟨hin, -, -, hstop⟩ := spot?_eq_some_iff.mp hspot
  exact section?_eq_some_iff.mpr ⟨stop, SectionHeader.size_pos hin, hstop, rfl⟩

theorem sectionSegment?_of_spot? (e : Elf) (bytes : List UInt8) :
    (e.sectionSegment? bytes h a).map Segment.region = some (e.segmentOf h a stop) := by
  obtain ⟨hin, -, -, hstop⟩ := spot?_eq_some_iff.mp hspot
  exact Option.map_eq_some_iff.mpr ⟨_,
    segment?_eq_some_iff.mpr ⟨stop, SectionHeader.size_pos hin, hstop, rfl⟩, rfl⟩

end Spot

/-- The sections that headers add after `next`, with their headers. -/
def emitted (e : Elf) (next : UInt64) (hs : List SectionHeader) : List (SectionHeader × Region) :=
  (layOut next hs).filterMap fun p => (e.section? p.1 p.2).map (p.1, ·)

theorem emitted_cons (e : Elf) (next : UInt64) (h : SectionHeader) (hs : List SectionHeader) :
    e.emitted next (h :: hs) =
      match spot? next h with
      | some (a, stop) => (h, e.regionOf h a stop) :: e.emitted stop hs
      | none => e.emitted next hs := by
  unfold emitted
  rw [layOut_cons]
  cases hspot : spot? next h with
  | none => rfl
  | some p =>
    dsimp only
    rw [List.filterMap_cons, section?_of_spot? hspot]
    rfl

theorem emitted_append (e : Elf) (next : UInt64) (xs ys : List SectionHeader) :
    e.emitted next (xs ++ ys) = e.emitted next xs ++ e.emitted (stopAfter next xs) ys := by
  unfold emitted
  rw [layOut_append, List.filterMap_append]

theorem map_snd_emitted (e : Elf) (next : UInt64) (hs : List SectionHeader) :
    (e.emitted next hs).map Prod.snd =
      (layOut next hs).filterMap fun p => e.section? p.1 p.2 := by
  unfold emitted
  rw [List.map_filterMap]
  congr 1
  funext p
  rw [Option.map_map]
  exact Option.map_id'

/-- The sections stand in the order of their headers. -/
theorem emitted_sublist (e : Elf) (next : UInt64) (hs : List SectionHeader) :
    ((e.emitted next hs).map Prod.fst).Sublist hs := by
  induction hs generalizing next with
  | nil => exact .slnil
  | cons h hs ih =>
    rw [emitted_cons]
    cases spot? next h with
    | none => exact (ih next).cons h
    | some p => exact (ih p.2).cons_cons h

theorem laidOut_emitted (e : Elf) (next : UInt64) (hs : List SectionHeader) :
    e.LaidOut next.toNat (e.emitted next hs) := by
  induction hs generalizing next with
  | nil => exact .nil _
  | cons h hs ih =>
    rw [emitted_cons]
    cases hspot : spot? next h with
    | none => exact ih next
    | some p => exact .cons (emits_of_spot? hspot) (ih p.2)

/-- The segments of sections, one for each. -/
theorem map_region_sectionSegment? (e : Elf) (bytes : List UInt8) (next : UInt64)
    (hs : List SectionHeader) :
    ((layOut next hs).filterMap fun p => e.sectionSegment? bytes p.1 p.2).map Segment.region =
      (e.emitted next hs).map fun p => e.segmentOf p.1 p.2.start p.2.stop := by
  induction hs generalizing next with
  | nil => rfl
  | cons h hs ih =>
    rw [emitted_cons, layOut_cons]
    cases hspot : spot? next h with
    | none => exact ih next
    | some p =>
      obtain ⟨s, hs, hregion⟩ :=
        Option.map_eq_some_iff.mp (sectionSegment?_of_spot? hspot e bytes)
      dsimp only
      rw [List.filterMap_cons, hs, List.map_cons, List.map_cons, ih p.2, hregion]
      rfl

/-- Where the last of some sections ends, or `next` if there is none. -/
def endOf (next : Address) : List Region → Address
  | [] => next
  | r :: rs => endOf r.stop rs

theorem endOf_emitted (e : Elf) (next : UInt64) (hs : List SectionHeader) :
    endOf next ((e.emitted next hs).map Prod.snd) = stopAfter next hs := by
  induction hs generalizing next with
  | nil => rfl
  | cons h hs ih =>
    rw [emitted_cons, stopAfter]
    cases spot? next h with
    | none => exact ih next
    | some p => exact ih p.2

/-! ## The memory view -/

/-- The file with other section headers. -/
def withSections (e : Elf) (hs : List SectionHeader) : Elf := { e with sections := hs }

section Relocatable

variable (hrel : e.isRelocatable = true)
include hrel

theorem placed_eq : e.placed = layOut 0 e.sections := by
  unfold placed
  rw [if_pos hrel]

theorem sections_image (bytes : List UInt8) :
    (e.image bytes).sections = (e.emitted 0 e.sections).map Prod.snd := by
  rw [map_snd_emitted, ← placed_eq hrel]
  rfl

theorem mem_regions_image {p : SectionHeader × Region} (hp : p ∈ e.emitted 0 e.sections) :
    ∃ s ∈ (e.image bytes).segments, s.region = e.segmentOf p.1 p.2.start p.2.stop := by
  have hmem := List.mem_map_of_mem (f := fun p => e.segmentOf p.1 p.2.start p.2.stop) hp
  rw [← map_region_sectionSegment? e bytes, List.mem_map] at hmem
  obtain ⟨s, hs, hregion⟩ := hmem
  refine ⟨s, List.mem_append_right _ ?_, hregion⟩
  rw [hrel, Bool.true_or, if_pos rfl, placed_eq hrel]
  exact hs

theorem image_withSections (hs : layOut 0 before = layOut 0 e.sections) :
    (e.withSections before).image bytes = e.image bytes := by
  have hplaced : (e.withSections before).placed = e.placed := by
    rw [placed_eq hrel, placed_eq (e := e.withSections before) hrel]
    exact hs
  unfold image
  rw [hplaced]
  rfl

end Relocatable

/-- **Sections of a relocatable file are laid out without overlap**, whatever the headers say. The
sections stand in the order of their headers, and each starts at the next multiple of its boundary
from the end of the one in front of it, the first one from 0. They hold addresses, none reaches into
the next one, and each has a segment with its range and its name and with the permissions that its
flags give. A header adds the next section just if it is allocated and there is a place for it; one
that adds none leaves the memory view as it would be without that header. -/
theorem relocatable_layout (e : Elf) (bytes : List UInt8) (hrel : e.isRelocatable = true) :
    (∃ placed : List (SectionHeader × Region),
      (placed.map Prod.fst).Sublist e.sections ∧
      placed.map Prod.snd = (e.image bytes).sections ∧
      e.LaidOut 0 placed ∧
      ∀ p ∈ placed, ∃ s ∈ (e.image bytes).segments,
        s.region = e.segmentOf p.1 p.2.start p.2.stop) ∧
    (∀ r ∈ (e.image bytes).sections, r.start < r.stop) ∧
    (e.image bytes).sections.Pairwise (fun r t => r.stop ≤ t.start) ∧
    ∀ before h after, e.sections = before ++ h :: after →
      let laid := ((e.withSections before).image bytes).sections
      (h.isAllocated = true → ¬ h.Overflows (endOf 0 laid).toNat →
        ∃ r later, e.Emits (endOf 0 laid).toNat h r ∧
          (e.image bytes).sections = laid ++ r :: later) ∧
      ((h.isAllocated = true → h.Overflows (endOf 0 laid).toNat) →
        (e.withSections (before ++ after)).image bytes = e.image bytes) := by
  have hlaid := e.laidOut_emitted 0 e.sections
  have hsections := sections_image hrel bytes
  refine ⟨⟨_, e.emitted_sublist 0 e.sections, hsections.symm, hlaid,
    fun p => mem_regions_image hrel⟩, ?_, ?_, ?_⟩
  · rw [hsections]
    exact List.forall_mem_map.mpr hlaid.lt
  · rw [hsections]
    exact hlaid.ascending
  · intro before h after heq laid
    have hbefore : laid = (e.emitted 0 before).map Prod.snd :=
      sections_image (e := e.withSections before) hrel bytes
    have hend : endOf 0 laid = stopAfter 0 before := by
      rw [hbefore]
      exact e.endOf_emitted 0 before
    rw [hend]
    constructor
    · intro hin hfits
      cases hspot : spot? (stopAfter 0 before) h with
      | none => exact absurd (spot?_eq_none_iff.mp hspot hin) hfits
      | some p =>
        refine ⟨_, (e.emitted p.2 after).map Prod.snd, emits_of_spot? hspot, ?_⟩
        rw [hsections, heq, emitted_append, emitted_cons, hspot, List.map_append, ← hbefore]
        rfl
    · intro hover
      refine image_withSections hrel ?_
      rw [heq, layOut_skip (spot?_eq_none_iff.mpr hover)]

/-- An allocated section with a size and an alignment. -/
def alignedSection (flags size alignment : UInt64) : SectionHeader :=
  ⟨0, 1, flags ||| 2, 0, 0, size, 0, alignment, 0⟩

/-- A relocatable file with four sections that have a place and, among them, one whose alignment is
too large and one whose size is. -/
def mixedAlignments : Elf where
  wide := true
  order := .little
  kind := 1
  machine := 62
  programs := []
  sections := [
    alignedSection 4 10 16, alignedSection 1 3 0, alignedSection 0 4 Word.top,
    alignedSection 0 4 12, alignedSection 0 Word.top 1, alignedSection 1 1 8]
  names := []

theorem laidOut_mixedAlignments :
    mixedAlignments.isRelocatable = true ∧
      (mixedAlignments.image []).sections.map (fun r => (r.start, r.stop)) =
        [(0, 10), (10, 13), (24, 28), (32, 33)] ∧
      (mixedAlignments.image []).sections.Pairwise (fun r t => r.stop ≤ t.start) ∧
      (mixedAlignments.withSections (mixedAlignments.sections.eraseIdx 2)).image [] =
        mixedAlignments.image [] := by
  have hrel : mixedAlignments.isRelocatable = true := rfl
  obtain ⟨-, -, hascending, hheaders⟩ := relocatable_layout mixedAlignments [] hrel
  refine ⟨hrel, rfl, hascending, ?_⟩
  refine (hheaders (mixedAlignments.sections.take 2) _ (mixedAlignments.sections.drop 3) rfl).2 ?_
  exact fun _ => .inl (by decide)

end Elf
end SliceRecovery.ObjectFile
