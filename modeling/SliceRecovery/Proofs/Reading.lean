import Mathlib.Algebra.Group.Nat.Defs
import SliceRecovery.Memory.Image

/-!
# SliceRecovery.Proofs.Reading -- what a read returns

A read that succeeds returns as many bytes as were asked for, its range ends at or before the
largest address, and every address of it lies in a segment. The number that a list of bytes stands
for is below 256 to the power of its length, so an integer of at most eight bytes is read without
loss.
-/

namespace SliceRecovery

namespace Segment

theorem length_fill (bytes : List UInt8) {lo hi : Nat} :
    (fill bytes lo hi).length = hi - lo := by
  unfold fill
  rw [List.length_append, List.length_replicate, List.length_take]
  omega

theorem length_slice? {s : Segment} {a : Address} {n : UInt64} {bs : List UInt8}
    (h : s.slice? a n = some bs) : bs.length = n.toNat := by
  unfold slice? at h
  split at h
  · cases h
  · dsimp only at h
    split at h
    · cases h
    · rename_i stop hstop
      split at h
      · cases h
      · cases h
        have := Word.add?_eq_some_iff.mp hstop
        rw [length_fill]
        omega

end Segment

namespace Region

theorem contains_iff {r : Region} {a : Address} :
    r.contains a = true ↔ r.start ≤ a ∧ a < r.stop := by
  simp [contains]

end Region

namespace Memory

variable {segments : List Segment} {a stop : Address} {n w : UInt64} {bs : List UInt8}

theorem length_readUpTo {fuel : Nat} (h : readUpTo segments stop fuel a = some bs)
    (hle : a ≤ stop) : bs.length = stop.toNat - a.toNat := by
  induction fuel generalizing a bs with
  | zero => cases h
  | succ fuel ih =>
    unfold readUpTo at h
    split at h
    · cases h
    · rename_i s hs
      -- the part taken from `s` ends where the range or the segment does
      have hfound := List.find?_some hs
      have hin := Region.contains_iff.mp hfound
      dsimp only at h
      generalize hnext : (if stop ≤ s.region.stop then stop else s.region.stop) = next at h
      have hbounds : a ≤ next ∧ next ≤ stop := by
        rw [← hnext]
        split
        · exact ⟨hle, UInt64.le_refl _⟩
        · rename_i hgt
          exact ⟨UInt64.le_of_lt hin.2, UInt64.le_of_lt (UInt64.not_le.mp hgt)⟩
      have hsub : (next - a).toNat = next.toNat - a.toNat := UInt64.toNat_sub_of_le _ _ hbounds.1
      have h1 := UInt64.le_iff_toNat_le.mp hbounds.1
      have h2 := UInt64.le_iff_toNat_le.mp hbounds.2
      split at h
      · cases h
      · rename_i part hpart
        have hlen := Segment.length_slice? hpart
        split at h
        · rename_i heq
          cases h
          rw [hlen, hsub, heq]
        · obtain ⟨rest, hrest, rfl⟩ := Option.map_eq_some_iff.mp h
          rw [List.length_append, hlen, hsub, ih hrest hbounds.2]
          omega

/-- A range that can be read ends at or before the largest address. -/
theorem end_of_read (h : read segments a n = some bs) : a.toNat + n.toNat < Word.span := by
  unfold read at h
  split at h
  · cases h
  · rename_i stop hstop
    rw [Word.add?_eq_some_iff.mp hstop]
    exact stop.toNat_lt

theorem length_read (h : read segments a n = some bs) : bs.length = n.toNat := by
  unfold read at h
  split at h
  · cases h
  · rename_i stop hstop
    have hsum := Word.add?_eq_some_iff.mp hstop
    have hle : a ≤ stop := UInt64.le_iff_toNat_le.mpr (by omega)
    rw [length_readUpTo h hle]
    omega

theorem mapped_of_readUpTo {b : Address} {fuel : Nat} (h : readUpTo segments stop fuel a = some bs)
    (hab : a ≤ b) (hb : b < stop) : ∃ s ∈ segments, s.region.contains b = true := by
  induction fuel generalizing a bs with
  | zero => cases h
  | succ fuel ih =>
    unfold readUpTo at h
    split at h
    · cases h
    · rename_i s hs
      have hfound := List.find?_some hs
      have hin := Region.contains_iff.mp hfound
      dsimp only at h
      by_cases hlt : b < s.region.stop
      · -- the address is in the part that is taken from `s`
        refine ⟨s, List.mem_of_find?_eq_some hs, Region.contains_iff.mpr ⟨?_, hlt⟩⟩
        exact UInt64.le_trans hin.1 hab
      · have hge := UInt64.not_lt.mp hlt
        -- the part ends before the address, so the rest is read from the end of `s`
        have hout : ¬ stop ≤ s.region.stop := fun hle =>
          UInt64.not_le.mpr hb (UInt64.le_trans hle hge)
        rw [if_neg hout] at h
        split at h
        · cases h
        · split at h
          · rename_i heq
            exact absurd (heq ▸ hge) (UInt64.not_le.mpr hb)
          · obtain ⟨rest, hrest, -⟩ := Option.map_eq_some_iff.mp h
            exact ih hrest hge

/-- Every address of a range that can be read lies in a segment. -/
theorem mapped_of_read {b : Address} (h : read segments a n = some bs) (hab : a ≤ b)
    (hb : b.toNat < a.toNat + n.toNat) : ∃ s ∈ segments, s.region.contains b = true := by
  unfold read at h
  split at h
  · cases h
  · rename_i stop hstop
    have hsum := Word.add?_eq_some_iff.mp hstop
    exact mapped_of_readUpTo h hab (UInt64.lt_iff_toNat_lt.mpr (by omega))

/-- Some byte is read only below the largest address. -/
theorem lt_top_of_read (h : read segments a n = some bs) (hn : n ≠ 0) : a < Word.top := by
  have hend := end_of_read h
  have hpos : n.toNat ≠ 0 := fun h => hn (UInt64.toNat_inj.mp h)
  rw [Word.lt_top_iff]
  omega

/-! ## Integers -/

theorem ofLittle_lt (bs : List UInt8) : ofLittle bs < 256 ^ bs.length := by
  induction bs with
  | nil => exact Nat.one_pos
  | cons b bs ih =>
    have hb := b.toNat_lt
    rw [ofLittle, List.length_cons, Nat.pow_succ]
    omega

theorem ofBytes_lt (order : ByteOrder) (bs : List UInt8) : ofBytes order bs < 256 ^ bs.length := by
  cases order with
  | little => exact ofLittle_lt bs
  | big =>
    rw [← List.length_reverse]
    exact ofLittle_lt bs.reverse

/-- Up to eight bytes stand for a word. -/
theorem ofBytes_lt_span (order : ByteOrder) {bs : List UInt8} (hw : w ≤ 8)
    (hbs : bs.length = w.toNat) : ofBytes order bs < Word.span := by
  have h8 : w.toNat ≤ 8 := UInt64.le_iff_toNat_le.mp hw
  calc ofBytes order bs < 256 ^ bs.length := ofBytes_lt order bs
    _ ≤ 256 ^ 8 := Nat.pow_le_pow_right (by decide) (hbs ▸ h8)

/-- An integer is read when its width is one to eight bytes and all of them are mapped; it is then
the number that the bytes stand for. -/
theorem readInteger_eq_ok_iff {order : ByteOrder} :
    readInteger segments a w order = .ok n ↔
      0 < w ∧ w ≤ 8 ∧ ∃ bs, read segments a w = some bs ∧ n.toNat = ofBytes order bs := by
  unfold readInteger
  by_cases hw : w = 0 ∨ 8 < w
  · rw [if_pos hw]
    refine iff_of_false (fun h => nomatch h) ?_
    rintro ⟨h0, h8, -⟩
    rcases hw with rfl | hw
    · exact UInt64.lt_irrefl _ h0
    · exact UInt64.not_le.mpr hw h8
  · rw [if_neg hw]
    obtain ⟨h0, h8⟩ := not_or.mp hw
    have h8 := UInt64.not_lt.mp h8
    rw [show 0 < w ↔ True from iff_true_intro (UInt64.pos_iff_ne_zero.mpr h0),
      show w ≤ 8 ↔ True from iff_true_intro h8, true_and, true_and]
    cases hr : read segments a w with
    | none => simp
    | some bs =>
      have hlt := ofBytes_lt_span order h8 (length_read hr)
      simp only [Except.ok.injEq, Option.some.injEq, exists_eq_left']
      rw [← UInt64.toNat_inj, UInt64.toNat_ofNat_of_lt' hlt]
      exact eq_comm

end Memory
end SliceRecovery
