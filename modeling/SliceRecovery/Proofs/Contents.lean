import Mathlib.Algebra.GroupWithZero.Nat
import Mathlib.Data.List.Pairwise
import SliceRecovery.Analysis.State
import SliceRecovery.Proofs.Reading

/-!
# SliceRecovery.Proofs.Contents -- memory as bytes at addresses

A read goes through memory in rounds, and each round takes a part from the first segment that holds
the address it stands at. `Reads` is that loop without a bound on its rounds. A round either ends
the read or leaves it at the end of a segment, with one segment fewer ahead, so the bound that
`readUpTo` counts down is never reached, and what a read returns is proved by induction on its
rounds. It depends on the order of the segments only where they overlap. Where they are apart,
memory is a partial map `byte?` from addresses to bytes, and a read returns the values of that map
over its range.
-/

namespace SliceRecovery

/-- An address inside the address space is reached without wrapping around. -/
theorem Word.toNat_add_ofNat {a : UInt64} {i : Nat} (h : a.toNat + i < Word.span) :
    (a + UInt64.ofNat i).toNat = a.toNat + i := by
  unfold Word.span at h
  rw [UInt64.toNat_add, UInt64.toNat_ofNat']
  omega

namespace Segment

variable {s : Segment} {a : Address} {n stop : UInt64} {bs : List UInt8}

/-- The byte at an address of a segment: the backing byte at its offset, or zero past the end of
the backing. -/
def byteAt (s : Segment) (a : Address) : UInt8 := s.bytes.getD (a.toNat - s.region.start.toNat) 0

/-- Where a read that has to get to `stop` leaves a segment. -/
def reach (s : Segment) (stop : Address) : Address :=
  if stop ≤ s.region.stop then stop else s.region.stop

theorem toNat_reach (s : Segment) (stop : Address) :
    (s.reach stop).toNat = min stop.toNat s.region.stop.toNat := by
  unfold reach
  split
  · rename_i h
    have := UInt64.le_iff_toNat_le.mp h
    omega
  · rename_i h
    have := UInt64.lt_iff_toNat_lt.mp (UInt64.not_le.mp h)
    omega

theorem getElem?_fill (bytes : List UInt8) (lo hi i : Nat) :
    (fill bytes lo hi)[i]? = if lo + i < hi then some (bytes.getD (lo + i) 0) else none := by
  unfold fill
  rw [List.getElem?_append, List.getElem?_replicate, List.getElem?_take, List.getElem?_drop,
    List.length_take, List.length_drop, List.getD_eq_getElem?_getD]
  by_cases hend : lo + i < hi
  · by_cases hbacked : lo + i < bytes.length
    · simp only [if_pos hend]
      rw [if_pos (by omega), if_pos (by omega), List.getElem?_eq_getElem hbacked]
      rfl
    · rw [if_pos hend, if_neg (by omega), if_pos (by omega), List.getElem?_eq_none (by omega)]
      rfl
  · rw [if_neg hend, if_neg (by omega), if_neg (by omega)]

/-- A segment serves every range that it holds the first address of and reaches the end of. -/
theorem slice?_eq_some (hin : s.region.contains a = true)
    (hend : a.toNat + n.toNat ≤ s.region.stop.toNat) :
    s.slice? a n = some (fill s.bytes (a.toNat - s.region.start.toNat)
      (a.toNat - s.region.start.toNat + n.toNat)) := by
  obtain ⟨hlow, -⟩ := Region.contains_iff.mp hin
  have hle := UInt64.le_iff_toNat_le.mp hlow
  have hoffset := UInt64.toNat_sub_of_le _ _ hlow
  have hstop := s.region.stop.toNat_lt
  have hfit : Word.add? (a - s.region.start) n = some (a - s.region.start + n) := by
    rw [Word.add?_eq_some_iff, UInt64.toNat_add, hoffset]
    omega
  have hsum := Word.add?_eq_some_iff.mp hfit
  have hsize : ¬ s.region.size < a - s.region.start + n := by
    intro hlt
    have hlt := UInt64.lt_iff_toNat_lt.mp hlt
    rw [← hsum, hoffset, Region.size, Word.toNat_subFloored] at hlt
    omega
  unfold slice?
  simp only [hin, Bool.not_true, Bool.false_eq_true, if_false, hfit, gt_iff_lt, if_neg hsize]
  rw [← hsum, hoffset]

/-- The bytes that a segment serves are its bytes at the addresses of the range. -/
theorem getElem?_of_slice? {i : Nat} (hbs : s.slice? a n = some bs)
    (hin : s.region.contains a = true) (hend : a.toNat + n.toNat ≤ s.region.stop.toNat)
    (hi : i < n.toNat) : bs[i]? = some (s.byteAt (a + UInt64.ofNat i)) := by
  rw [slice?_eq_some hin hend, Option.some.injEq] at hbs
  subst hbs
  have hle := UInt64.le_iff_toNat_le.mp (Region.contains_iff.mp hin).1
  have hstop := s.region.stop.toNat_lt
  have haddr : (a + UInt64.ofNat i).toNat = a.toNat + i :=
    Word.toNat_add_ofNat (by unfold Word.span; omega)
  unfold byteAt
  rw [getElem?_fill, if_pos (by omega), haddr]
  congr 2
  omega

end Segment

/-! ## Segments that are apart -/

/-- Two regions have no address in common. -/
def Region.Apart (r t : Region) : Prop := r.stop ≤ t.start ∨ t.stop ≤ r.start

instance (r t : Region) : Decidable (r.Apart t) :=
  inferInstanceAs (Decidable (r.stop ≤ t.start ∨ t.stop ≤ r.start))

theorem Region.Apart.not_contains {r t : Region} {a : Address} (h : r.Apart t)
    (hr : r.contains a = true) : t.contains a ≠ true := by
  intro ht
  obtain ⟨hra, har⟩ := Region.contains_iff.mp hr
  obtain ⟨hta, hat⟩ := Region.contains_iff.mp ht
  rcases h with h | h
  · exact UInt64.lt_irrefl _ (UInt64.lt_of_lt_of_le har (UInt64.le_trans h hta))
  · exact UInt64.lt_irrefl _ (UInt64.lt_of_lt_of_le hat (UInt64.le_trans h hra))

namespace Memory

variable {segments : List Segment} {s : Segment} {a b stop : Address} {n m : UInt64}
  {bs : List UInt8} {out : Option (List UInt8)}

/-- No two segments of a list have an address in common. -/
def Apart (segments : List Segment) : Prop :=
  segments.Pairwise fun s t => s.region.Apart t.region

/-- At most one of the segments holds an address. -/
theorem Apart.eq_of_contains {t : Segment} (hapart : Apart segments) (hs : s ∈ segments)
    (ht : t ∈ segments) (hsa : s.region.contains a = true) (hta : t.region.contains a = true) :
    s = t := by
  by_contra hne
  have : Std.Symm fun s t : Segment => s.region.Apart t.region := ⟨fun _ _ => Or.symm⟩
  exact Region.Apart.not_contains (hapart.forall hs ht hne) hsa hta

theorem contains_of_find? (hs : (segments.find? fun s => s.region.contains a) = some s) :
    s.region.contains a = true := by
  have hin := List.find?_some hs
  exact hin

/-! ## Rounds of a read -/

/-- A read that stands at an address and has to get to `stop` comes to an end with the given bytes,
or without any. Each round takes a part from the first segment that holds the address; nothing is
said of how many rounds there may be. -/
inductive Reads (segments : List Segment) (stop : Address) :
    Address → Option (List UInt8) → Prop
  | unmapped {a : Address} :
      (segments.find? fun s => s.region.contains a) = none → Reads segments stop a none
  | refused {a : Address} {s : Segment} :
      (segments.find? fun s => s.region.contains a) = some s →
      s.slice? a (s.reach stop - a) = none → Reads segments stop a none
  | last {a : Address} {s : Segment} {part : List UInt8} :
      (segments.find? fun s => s.region.contains a) = some s →
      s.slice? a (s.reach stop - a) = some part →
      s.reach stop = stop → Reads segments stop a (some part)
  | onward {a : Address} {s : Segment} {part : List UInt8} {out : Option (List UInt8)} :
      (segments.find? fun s => s.region.contains a) = some s →
      s.slice? a (s.reach stop - a) = some part →
      s.reach stop ≠ stop → Reads segments stop (s.reach stop) out →
      Reads segments stop a (out.map (part ++ ·))

/-- How many segments end after an address. -/
def ahead (segments : List Segment) (a : Address) : Nat :=
  segments.countP fun s => a < s.region.stop

/-- At the end of a segment that was ahead, fewer segments are. -/
theorem ahead_lt (hs : s ∈ segments) (ha : a < s.region.stop) :
    ahead segments s.region.stop < ahead segments a := by
  obtain ⟨before, after, rfl⟩ := List.append_of_mem hs
  have hmono : ∀ l : List Segment, ahead l s.region.stop ≤ ahead l a := by
    intro l
    apply List.countP_mono_left
    intro t _ ht
    simp only [decide_eq_true_eq] at ht ⊢
    exact UInt64.lt_trans ha ht
  have hbefore := hmono before
  have hafter := hmono after
  unfold ahead at hbefore hafter ⊢
  simp only [List.countP_append, List.countP_cons, decide_eq_true_eq, ha, UInt64.lt_irrefl,
    if_true, if_false]
  omega

/-- The bound on the rounds is never reached: a read comes to an end in as many rounds as there are
segments ahead of it, and one more. -/
theorem reads_readUpTo {fuel : Nat} (hfuel : ahead segments a < fuel) :
    Reads segments stop a (readUpTo segments stop fuel a) := by
  induction fuel generalizing a with
  | zero => omega
  | succ fuel ih =>
    unfold readUpTo
    cases hs : segments.find? fun s => s.region.contains a with
    | none => exact .unmapped hs
    | some s =>
      dsimp only
      -- where this round ends is `s.reach stop`, which the definition spells out
      rw [← Segment.reach]
      cases hpart : s.slice? a (s.reach stop - a) with
      | none => exact .refused hs hpart
      | some part =>
        dsimp only
        split
        · exact .last hs hpart ‹_›
        · rename_i hstop
          refine .onward hs hpart hstop (ih ?_)
          -- the next round starts where `s` ends, so `s` is no longer ahead
          have hnext : s.reach stop = s.region.stop := by
            unfold Segment.reach at hstop ⊢
            split
            · rename_i hle
              exact absurd (if_pos hle) hstop
            · rfl
          have hin := Region.contains_iff.mp (contains_of_find? hs)
          have hlt := ahead_lt (List.mem_of_find?_eq_some hs) hin.2
          rw [hnext]
          omega

theorem reads_read (hstop : Word.add? a n = some stop) :
    Reads segments stop a (read segments a n) := by
  unfold read
  rw [hstop]
  apply reads_readUpTo
  have hle : ahead segments a ≤ segments.length := List.countP_le_length
  omega

/-! ## What a read returns -/

/-- A segment serves what a read asks of it in one round. -/
theorem exists_part (hin : s.region.contains a = true) (hlt : a < stop) :
    (∃ part, s.slice? a (s.reach stop - a) = some part) ∧
      a < s.reach stop ∧ (s.reach stop - a).toNat = (s.reach stop).toNat - a.toNat ∧
      a.toNat + (s.reach stop - a).toNat ≤ s.region.stop.toNat := by
  have hreach := s.toNat_reach stop
  have hstop := UInt64.lt_iff_toNat_lt.mp (Region.contains_iff.mp hin).2
  have hlt := UInt64.lt_iff_toNat_lt.mp hlt
  have hbelow : a < s.reach stop := UInt64.lt_iff_toNat_lt.mpr (by omega)
  have hsub := UInt64.toNat_sub_of_le _ _ (UInt64.le_of_lt hbelow)
  have hend : a.toNat + (s.reach stop - a).toNat ≤ s.region.stop.toNat := by omega
  exact ⟨⟨_, Segment.slice?_eq_some hin hend⟩, hbelow, hsub, hend⟩

/-- A read succeeds if every address up to its end is mapped. -/
theorem Reads.isSome (hr : Reads segments stop a out) (hlt : a < stop)
    (hmapped : ∀ b, a ≤ b → b < stop → ∃ s ∈ segments, s.region.contains b = true) :
    out.isSome := by
  induction hr with
  | unmapped hs =>
    obtain ⟨s, hmem, hin⟩ := hmapped _ (UInt64.le_refl _) hlt
    exact absurd hin (List.find?_eq_none.mp hs s hmem)
  | refused hs hpart =>
    obtain ⟨⟨part, hsome⟩, -⟩ := exists_part (contains_of_find? hs) hlt
    rw [hpart] at hsome
    cases hsome
  | last => rfl
  | @onward a s part out hs hpart hne hrest ih =>
    obtain ⟨-, hbelow, -⟩ := exists_part (contains_of_find? hs) hlt
    have hreach := s.toNat_reach stop
    have hne : (s.reach stop).toNat ≠ stop.toNat := fun h => hne (UInt64.toNat_inj.mp h)
    rw [Option.isSome_map]
    apply ih
    · exact UInt64.lt_iff_toNat_lt.mpr (by omega)
    · intro b hb
      exact hmapped b (UInt64.le_trans (UInt64.le_of_lt hbelow) hb)

/-- Some bytes can be read just if their range does not pass the largest address and is mapped
throughout. -/
theorem isSome_read_iff (hn : 0 < n) :
    (read segments a n).isSome ↔
      a.toNat + n.toNat < Word.span ∧
        ∀ i, i < n.toNat → ∃ s ∈ segments, s.region.contains (a + UInt64.ofNat i) = true := by
  have hpos := UInt64.lt_iff_toNat_lt.mp hn
  constructor
  · intro h
    obtain ⟨bs, hbs⟩ := Option.isSome_iff_exists.mp h
    have hend := end_of_read hbs
    refine ⟨hend, ?_⟩
    intro i hi
    have haddr := Word.toNat_add_ofNat (a := a) (i := i) (by omega)
    apply mapped_of_read hbs
    · exact UInt64.le_iff_toNat_le.mpr (by omega)
    · omega
  · rintro ⟨hend, hmapped⟩
    have hstop : Word.add? a n = some (a + n) := by
      unfold Word.span at hend
      rw [Word.add?_eq_some_iff, UInt64.toNat_add]
      omega
    have hsum := Word.add?_eq_some_iff.mp hstop
    refine (reads_read hstop).isSome (UInt64.lt_iff_toNat_lt.mpr (by omega)) ?_
    intro b hab hb
    have hab := UInt64.le_iff_toNat_le.mp hab
    have hb := UInt64.lt_iff_toNat_lt.mp hb
    have hoffset : a + UInt64.ofNat (b.toNat - a.toNat) = b := by
      apply UInt64.toNat_inj.mp
      rw [Word.toNat_add_ofNat (by omega)]
      omega
    have hb := hmapped (b.toNat - a.toNat) (by omega)
    rwa [hoffset] at hb

/-! ## Bytes at addresses -/

/-- What memory holds at an address: the byte of the first segment with that address. -/
def byte? (segments : List Segment) (a : Address) : Option UInt8 :=
  (segments.find? fun s => s.region.contains a).map fun s => s.byteAt a

/-- Where segments are apart, memory holds the byte of the one segment with an address. -/
theorem byte?_eq (hapart : Apart segments) (hs : s ∈ segments)
    (hin : s.region.contains a = true) : byte? segments a = some (s.byteAt a) := by
  unfold byte?
  cases hfound : segments.find? fun s => s.region.contains a with
  | none => exact absurd hin (List.find?_eq_none.mp hfound s hs)
  | some t =>
    have hmem := List.mem_of_find?_eq_some hfound
    rw [hapart.eq_of_contains hmem hs (contains_of_find? hfound) hin]
    rfl

/-- The part that one round takes holds the bytes of memory. -/
theorem getElem?_part {part : List UInt8} {i : Nat} (hapart : Apart segments) (hlt : a < stop)
    (hs : (segments.find? fun s => s.region.contains a) = some s)
    (hpart : s.slice? a (s.reach stop - a) = some part) (hi : a.toNat + i < (s.reach stop).toNat) :
    part[i]? = byte? segments (a + UInt64.ofNat i) := by
  have hspan := stop.toNat_lt
  have hin := contains_of_find? hs
  obtain ⟨-, hbelow, hsub, hend⟩ := exists_part hin hlt
  have hreach := s.toNat_reach stop
  have haddr := Word.toNat_add_ofNat (a := a) (i := i) (by unfold Word.span; omega)
  rw [Segment.getElem?_of_slice? hpart hin hend (by omega)]
  refine (byte?_eq hapart (List.mem_of_find?_eq_some hs) ?_).symm
  obtain ⟨hlow, -⟩ := Region.contains_iff.mp hin
  have hlow := UInt64.le_iff_toNat_le.mp hlow
  apply Region.contains_iff.mpr
  rw [UInt64.le_iff_toNat_le, UInt64.lt_iff_toNat_lt]
  omega

/-- The bytes of a read are those that memory holds at the addresses of its range. -/
theorem Reads.getElem? (hr : Reads segments stop a out) (hapart : Apart segments)
    (hlt : a < stop) (hout : out = some bs) {i : Nat} (hi : a.toNat + i < stop.toNat) :
    bs[i]? = byte? segments (a + UInt64.ofNat i) := by
  have hspan := stop.toNat_lt
  induction hr generalizing bs i with
  | unmapped => cases hout
  | refused => cases hout
  | last hs hbytes hstop =>
    cases hout
    exact getElem?_part hapart hlt hs hbytes (by rw [hstop]; exact hi)
  | @onward a s part out hs hbytes hne hrest ih =>
    obtain ⟨rest, hrestout, rfl⟩ := Option.map_eq_some_iff.mp hout
    obtain ⟨-, hbelow, hsub, hend⟩ := exists_part (contains_of_find? hs) hlt
    have hbelow := UInt64.lt_iff_toNat_lt.mp hbelow
    have hreach := s.toNat_reach stop
    have hne : (s.reach stop).toNat ≠ stop.toNat := fun h => hne (UInt64.toNat_inj.mp h)
    have hlen := Segment.length_slice? hbytes
    by_cases hwithin : a.toNat + i < (s.reach stop).toNat
    · rw [List.getElem?_append_left (by omega)]
      exact getElem?_part hapart hlt hs hbytes hwithin
    · -- the byte is in the rest, which is read from the end of the part
      rw [List.getElem?_append_right (by omega),
        ih (UInt64.lt_iff_toNat_lt.mpr (by omega)) hrestout (by omega)]
      congr 1
      apply UInt64.toNat_inj.mp
      rw [Word.toNat_add_ofNat (by unfold Word.span; omega),
        Word.toNat_add_ofNat (by unfold Word.span; omega)]
      omega

theorem byte?_of_read (hapart : Apart segments) (hbs : read segments a n = some bs) {i : Nat}
    (hi : i < n.toNat) : byte? segments (a + UInt64.ofNat i) = bs[i]? := by
  have hend := end_of_read hbs
  obtain ⟨stop, hstop⟩ : ∃ stop, Word.add? a n = some stop := by
    unfold read at hbs
    cases hstop : Word.add? a n with
    | none =>
      rw [hstop] at hbs
      cases hbs
    | some stop => exact ⟨stop, rfl⟩
  have hsum := Word.add?_eq_some_iff.mp hstop
  refine ((reads_read hstop).getElem? hapart ?_ hbs (by omega)).symm
  exact UInt64.lt_iff_toNat_lt.mpr (by omega)

/-- Where segments are apart, a read returns what memory holds, byte by byte. -/
theorem read_eq_some_iff (hapart : Apart segments) (hn : 0 < n) :
    read segments a n = some bs ↔
      a.toNat + n.toNat < Word.span ∧ bs.length = n.toNat ∧
        ∀ i, i < n.toNat → byte? segments (a + UInt64.ofNat i) = bs[i]? := by
  constructor
  · intro h
    exact ⟨end_of_read h, length_read h, fun i => byte?_of_read hapart h⟩
  · rintro ⟨hend, hlen, hbs⟩
    have hsome : (read segments a n).isSome := by
      refine (isSome_read_iff hn).mpr ⟨hend, ?_⟩
      intro i hi
      have hi' := hbs i hi
      rw [List.getElem?_eq_getElem (by omega)] at hi'
      obtain ⟨s, hs, -⟩ := Option.map_eq_some_iff.mp hi'
      exact ⟨s, List.mem_of_find?_eq_some hs, contains_of_find? hs⟩
    obtain ⟨cs, hcs⟩ := Option.isSome_iff_exists.mp hsome
    rw [hcs, Option.some.injEq]
    have hcslen := length_read hcs
    apply List.ext_getElem?
    intro i
    by_cases hi : i < n.toNat
    · rw [← byte?_of_read hapart hcs hi, hbs i hi]
    · rw [List.getElem?_eq_none (by omega), List.getElem?_eq_none (by omega)]

/-- A read is a read of its first part followed by a read of the rest. -/
theorem read_eq_append (hapart : Apart segments) (hm : 0 < m) (hmn : m < n) :
    read segments a n = some bs ↔
      ∃ xs ys, read segments a m = some xs ∧ read segments (a + m) (n - m) = some ys ∧
        bs = xs ++ ys := by
  have hpos := UInt64.lt_iff_toNat_lt.mp hm
  have hlt := UInt64.lt_iff_toNat_lt.mp hmn
  have hsub := UInt64.toNat_sub_of_le _ _ (UInt64.le_of_lt hmn)
  have hrest : 0 < n - m := UInt64.lt_iff_toNat_lt.mpr (by rw [hsub, UInt64.toNat_zero]; omega)
  have hshift : ∀ i, a + m + UInt64.ofNat i = a + UInt64.ofNat (m.toNat + i) := by
    intro i
    rw [UInt64.ofNat_add, UInt64.ofNat_toNat, UInt64.add_assoc]
  have hstart : a.toNat + m.toNat < Word.span → (a + m).toNat = a.toNat + m.toNat := by
    intro h
    have := Word.toNat_add_ofNat (a := a) h
    rwa [UInt64.ofNat_toNat] at this
  rw [read_eq_some_iff hapart (UInt64.lt_trans hm hmn)]
  simp only [read_eq_some_iff hapart hm, read_eq_some_iff hapart hrest, hshift, hsub]
  constructor
  · rintro ⟨hend, hlen, hbs⟩
    have hstart := hstart (by omega)
    refine ⟨bs.take m.toNat, bs.drop m.toNat, ⟨by omega, ?_, ?_⟩, ⟨by omega, ?_, ?_⟩,
      (List.take_append_drop _ _).symm⟩
    · rw [List.length_take]
      omega
    · intro i hi
      rw [hbs i (by omega), List.getElem?_take_of_lt hi]
    · rw [List.length_drop]
      omega
    · intro i hi
      rw [hbs (m.toNat + i) (by omega), List.getElem?_drop]
  · rintro ⟨xs, ys, ⟨hxend, hxlen, hxs⟩, ⟨hyend, hylen, hys⟩, rfl⟩
    have hstart := hstart hxend
    refine ⟨by omega, ?_, ?_⟩
    · rw [List.length_append]
      omega
    · intro i hi
      by_cases hfirst : i < m.toNat
      · rw [hxs i hfirst, List.getElem?_append_left (by omega)]
      · rw [List.getElem?_append_right (by omega), hxlen, ← hys (i - m.toNat) (by omega)]
        congr 3
        omega

end Memory

/-! ## Reads of an analysis -/

namespace Analysis

variable {h : Analysis} {a : Address} {n : UInt64} {bs : List UInt8} {parts : List UInt64}

/-- The bytes of ranges of the given lengths that follow each other from an address, each read by
itself. -/
def readParts (h : Analysis) : Address → List UInt64 → Except AnalysisError (List UInt8)
  | _, [] => .ok []
  | a, m :: ms => do
    let xs ← h.read a m
    let ys ← h.readParts (a + m) ms
    return xs ++ ys

theorem read_eq_ok_iff : h.read a n = .ok bs ↔ Memory.read h.segments a n = some bs := by
  unfold read
  cases Memory.read h.segments a n <;> simp

theorem readParts_cons_eq_ok_iff {m : UInt64} {ms : List UInt64} :
    h.readParts a (m :: ms) = .ok bs ↔
      ∃ xs ys, h.read a m = .ok xs ∧ h.readParts (a + m) ms = .ok ys ∧ bs = xs ++ ys := by
  rw [readParts]
  cases h.read a m with
  | error e => simp [bind, Except.bind]
  | ok xs => cases h.readParts (a + m) ms <;> simp [bind, Except.bind, pure, Except.pure, eq_comm]

/-- A range is read in parts as it is read at once. -/
theorem read_eq_readParts (hapart : Memory.Apart h.segments) (hn : 0 < n)
    (hparts : ∀ m ∈ parts, 0 < m) (hsum : (parts.map UInt64.toNat).sum = n.toNat) :
    h.read a n = .ok bs ↔ h.readParts a parts = .ok bs := by
  induction parts generalizing a n bs with
  | nil =>
    have hpos := UInt64.lt_iff_toNat_lt.mp hn
    simp only [List.map_nil, List.sum_nil] at hsum
    omega
  | cons m ms ih =>
    have hm := hparts m List.mem_cons_self
    have hms : ∀ k ∈ ms, 0 < k := fun k hk => hparts k (List.mem_cons_of_mem _ hk)
    rw [List.map_cons, List.sum_cons] at hsum
    rw [readParts_cons_eq_ok_iff]
    cases ms with
    | nil =>
      have hmn : n = m := UInt64.toNat_inj.mp (by simpa using hsum.symm)
      subst hmn
      simp [readParts]
    | cons k ks =>
      have hk := UInt64.lt_iff_toNat_lt.mp (hms k List.mem_cons_self)
      rw [List.map_cons, List.sum_cons] at hsum
      have hmn : m < n := UInt64.lt_iff_toNat_lt.mpr (by omega)
      have hsub := UInt64.toNat_sub_of_le _ _ (UInt64.le_of_lt hmn)
      have hrest : 0 < n - m := UInt64.lt_iff_toNat_lt.mpr (by rw [hsub, UInt64.toNat_zero]; omega)
      have hih : ∀ ys, h.readParts (a + m) (k :: ks) = .ok ys ↔ h.read (a + m) (n - m) = .ok ys := by
        intro ys
        refine (ih hrest hms ?_).symm
        rw [List.map_cons, List.sum_cons, hsub]
        omega
      simp only [hih, read_eq_ok_iff]
      exact Memory.read_eq_append hapart hm hmn

/-- **Reads over segments are exact.** Let the segments be any, in any order and overlapping or
not. A read of at least one byte comes to an end. It succeeds just if its range ends at or before
the largest address and every address of the range lies in a segment, and it returns as many bytes
as were asked for. Where the segments are apart, each of these is the backing byte of the one
segment with its address, or zero past the end of that segment's backing, and the range is read in
any parts as it is read at once. -/
theorem read_exact (h : Analysis) (a : Address) (hn : 0 < n) :
    (∀ stop, Word.add? a n = some stop →
      Memory.Reads h.segments stop a (Memory.read h.segments a n)) ∧
    ((∃ bs, h.read a n = .ok bs) ↔
      a.toNat + n.toNat ≤ Word.top.toNat ∧
        ∀ i, i < n.toNat → ∃ s ∈ h.segments, s.region.contains (a + UInt64.ofNat i) = true) ∧
    (∀ bs, h.read a n = .ok bs → bs.length = n.toNat) ∧
    (Memory.Apart h.segments →
      (∀ bs, h.read a n = .ok bs → ∀ i, i < n.toNat → ∀ s ∈ h.segments,
        s.region.contains (a + UInt64.ofNat i) = true →
          bs[i]? = some (s.byteAt (a + UInt64.ofNat i))) ∧
      ∀ parts : List UInt64, (∀ m ∈ parts, 0 < m) → (parts.map UInt64.toNat).sum = n.toNat →
        ∀ bs, h.read a n = .ok bs ↔ h.readParts a parts = .ok bs) := by
  refine ⟨fun stop => Memory.reads_read, ?_, ?_, fun hapart => ⟨?_, ?_⟩⟩
  · have htop : a.toNat + n.toNat ≤ Word.top.toNat ↔ a.toNat + n.toNat < Word.span := by
      rw [show Word.top.toNat = 18446744073709551615 from rfl, Word.span]
      omega
    rw [htop, ← Memory.isSome_read_iff hn, Option.isSome_iff_exists]
    simp only [read_eq_ok_iff]
  · intro bs hbs
    exact Memory.length_read (read_eq_ok_iff.mp hbs)
  · intro bs hbs i hi s hs hin
    obtain ⟨-, -, hbytes⟩ := (Memory.read_eq_some_iff hapart hn).mp (read_eq_ok_iff.mp hbs)
    rw [← hbytes i hi]
    exact Memory.byte?_eq hapart hs hin
  · intro parts hparts hsum bs
    exact read_eq_readParts hapart hn hparts hsum

/-- Three segments that abut, listed out of order: one is backed in full, one in part and one by
more bytes than it has. -/
def unevenSegments : Analysis where
  segments := [
    ⟨{ start := 0x1008, stop := 0x100A, readable := true }, [5, 6, 7, 8]⟩,
    ⟨{ start := 0x1000, stop := 0x1004, readable := true }, [1, 2, 3, 4]⟩,
    ⟨{ start := 0x1004, stop := 0x1008, readable := true }, [9]⟩]

theorem exact_unevenSegments :
    (0 : UInt64) < 7 ∧ Memory.Apart unevenSegments.segments ∧
      unevenSegments.read 0x1003 7 = .ok [4, 9, 0, 0, 0, 5, 6] ∧
      unevenSegments.readParts 0x1003 [2, 1, 4] = .ok [4, 9, 0, 0, 0, 5, 6] := by
  have hn : (0 : UInt64) < 7 := by decide
  have hapart : Memory.Apart unevenSegments.segments := by
    unfold Memory.Apart
    decide
  have hread : unevenSegments.read 0x1003 7 = .ok [4, 9, 0, 0, 0, 5, 6] := rfl
  obtain ⟨-, -, -, hexact⟩ := read_exact unevenSegments 0x1003 hn
  have hparts : ∀ m ∈ [2, 1, 4], (0 : UInt64) < m := by
    simp only [List.forall_mem_cons, List.not_mem_nil, false_imp_iff, implies_true]
    decide
  exact ⟨hn, hapart, hread, ((hexact hapart).2 [2, 1, 4] hparts rfl _).mp hread⟩

end Analysis
end SliceRecovery
