import SliceRecovery.Proofs.Contents

/-!
# SliceRecovery.Proofs.Integers -- integers are read back as written

`toBytes` writes a number in so many bytes, each of them a digit to the base 256, and is said without
the reader. Writing and `ofBytes` are inverse to each other on numbers that fit, so an integer is
read exactly when memory holds the bytes that it is written with (`readInteger_eq_ok_iff_toBytes`).
What memory holds in segments that are apart was said byte by byte in `Contents`; the three ways in
which a range may lie in them, within one, in the zeros at the end of one and across several, need no
cases of their own.
-/

namespace SliceRecovery

namespace ByteOrder

/-- The byte order that is not this one. -/
def other : ByteOrder → ByteOrder
  | little => big
  | big => little

end ByteOrder

namespace Memory

variable {segments : List Segment} {a : Address} {w v : UInt64} {order : ByteOrder}
  {bs : List UInt8} {n : Nat}

/-! ## Writing -/

/-- The byte of a number that counts 256 to the power `i`. -/
def digit (n i : Nat) : UInt8 := UInt8.ofNat (n / 256 ^ i)

/-- The bytes that a number is written with in a byte order. -/
def toBytes (order : ByteOrder) (width n : Nat) : List UInt8 :=
  match order with
  | .little => (List.range width).map (digit n)
  | .big => ((List.range width).map (digit n)).reverse

theorem digit_succ (n i : Nat) : digit n (i + 1) = digit (n / 256) i := by
  unfold digit
  rw [Nat.div_div_eq_div_mul, Nat.pow_succ, Nat.mul_comm]

theorem map_digit_succ (width n : Nat) :
    (List.range (width + 1)).map (digit n) =
      UInt8.ofNat n :: (List.range width).map (digit (n / 256)) := by
  rw [List.range_succ_eq_map, List.map_cons, List.map_map]
  congr 1
  · unfold digit
    rw [Nat.pow_zero, Nat.div_one]
  · exact List.map_congr_left fun i _ => digit_succ n i

theorem ofLittle_map_digit {width : Nat} (hn : n < 256 ^ width) :
    ofLittle ((List.range width).map (digit n)) = n := by
  induction width generalizing n with
  | zero =>
    rw [Nat.pow_zero] at hn
    exact (Nat.lt_one_iff.mp hn).symm
  | succ width ih =>
    have hdiv : n / 256 < 256 ^ width := by
      apply Nat.div_lt_of_lt_mul
      rwa [Nat.mul_comm, ← Nat.pow_succ]
    rw [map_digit_succ, ofLittle, ih hdiv, UInt8.toNat_ofNat']
    omega

theorem map_digit_ofLittle (bs : List UInt8) :
    (List.range bs.length).map (digit (ofLittle bs)) = bs := by
  induction bs with
  | nil => rfl
  | cons b bs ih =>
    have hb := b.toNat_lt
    have hrest : ofLittle (b :: bs) / 256 = ofLittle bs := by
      rw [ofLittle]
      omega
    have hfirst : UInt8.ofNat (ofLittle (b :: bs)) = b := by
      apply UInt8.toNat_inj.mp
      rw [UInt8.toNat_ofNat', ofLittle]
      omega
    rw [List.length_cons, map_digit_succ, hrest, hfirst, ih]

/-- What was written is read. -/
theorem ofBytes_toBytes (order : ByteOrder) {width : Nat} (hn : n < 256 ^ width) :
    ofBytes order (toBytes order width n) = n := by
  cases order with
  | little => exact ofLittle_map_digit hn
  | big =>
    unfold ofBytes toBytes
    rw [List.reverse_reverse]
    exact ofLittle_map_digit hn

/-- What was read is written. -/
theorem toBytes_ofBytes (order : ByteOrder) (bs : List UInt8) :
    toBytes order bs.length (ofBytes order bs) = bs := by
  cases order with
  | little => exact map_digit_ofLittle bs
  | big =>
    unfold ofBytes toBytes
    rw [← List.length_reverse, map_digit_ofLittle, List.reverse_reverse]

theorem length_toBytes (order : ByteOrder) (width n : Nat) :
    (toBytes order width n).length = width := by
  cases order <;> simp [toBytes]

theorem ofBytes_other (order : ByteOrder) (bs : List UInt8) :
    ofBytes order.other bs = ofBytes order bs.reverse := by
  cases order with
  | little => rfl
  | big => exact congrArg ofLittle (List.reverse_reverse bs).symm

/-! ## Reading -/

/-- A range that is mapped throughout ends at or before the largest address, which is never mapped
itself. -/
theorem lt_span_of_mapped
    (hmapped : ∀ i < w.toNat, ∃ s ∈ segments, s.region.contains (a + UInt64.ofNat i) = true) :
    a.toNat + w.toNat < Word.span ∨ w = 0 := by
  by_contra hnot
  obtain ⟨hge, hw⟩ := not_or.mp hnot
  have hpos : w.toNat ≠ 0 := fun h => hw (UInt64.toNat_inj.mp h)
  have ha := a.toNat_lt
  unfold Word.span at hge
  obtain ⟨s, -, hin⟩ := hmapped (Word.span - 1 - a.toNat) (by unfold Word.span; omega)
  have hstop := UInt64.lt_iff_toNat_lt.mp (Region.contains_iff.mp hin).2
  have hlast := s.region.stop.toNat_lt
  rw [Word.toNat_add_ofNat (by unfold Word.span; omega), Word.span] at hstop
  omega

/-- An integer is read just if its bytes are. -/
theorem readInteger_eq_ok_iff_toBytes (hw : 0 < w) (hw8 : w ≤ 8) :
    readInteger segments a w order = .ok v ↔
      v.toNat < 256 ^ w.toNat ∧ read segments a w = some (toBytes order w.toNat v.toNat) := by
  rw [readInteger_eq_ok_iff]
  constructor
  · rintro ⟨-, -, bs, hbs, hv⟩
    rw [hv, ← length_read hbs, toBytes_ofBytes]
    exact ⟨ofBytes_lt order bs, hbs⟩
  · rintro ⟨hlt, hbs⟩
    exact ⟨hw, hw8, _, hbs, (ofBytes_toBytes order hlt).symm⟩

end Memory

namespace Analysis

variable {h : Analysis} {a : Address} {w v : UInt64} {order : ByteOrder}

theorem readInteger_eq_ok_iff :
    h.readInteger a w order = .ok v ↔ Memory.readInteger h.segments a w order = .ok v := by
  unfold readInteger
  cases Memory.readInteger h.segments a w order with
  | ok n => simp
  | error e => cases e <;> simp

/-- **Integers are read back as written.** Let the segments be apart, and let the range be of one to
eight bytes. If a number fits it and each of its addresses lies in a segment that holds there, in its
backing or as a zero behind it, the byte that the number is written with, then the number is read.
Any number that is read fits, and it is written with the bytes that are read, which are those in the
segments; in the other byte order the number that is read is the one of the bytes in reverse. -/
theorem integers_read_back (hapart : Memory.Apart h.segments) (hw : 0 < w) (hw8 : w ≤ 8)
    (a : Address) (order : ByteOrder) :
    (∀ v, v.toNat < 256 ^ w.toNat →
      (∀ i < w.toNat, ∃ s ∈ h.segments, s.region.contains (a + UInt64.ofNat i) = true ∧
        (Memory.toBytes order w.toNat v.toNat)[i]? = some (s.byteAt (a + UInt64.ofNat i))) →
      h.readInteger a w order = .ok v) ∧
    ∀ v, h.readInteger a w order = .ok v →
      v.toNat < 256 ^ w.toNat ∧ h.read a w = .ok (Memory.toBytes order w.toNat v.toNat) ∧
      (∀ i < w.toNat, ∃ s ∈ h.segments, s.region.contains (a + UInt64.ofNat i) = true ∧
        (Memory.toBytes order w.toNat v.toNat)[i]? = some (s.byteAt (a + UInt64.ofNat i))) ∧
      ∃ u, h.readInteger a w order.other = .ok u ∧
        u.toNat = Memory.ofBytes order (Memory.toBytes order w.toNat v.toNat).reverse ∧
        Memory.toBytes order w.toNat u.toNat =
          (Memory.toBytes order w.toNat v.toNat).reverse := by
  simp only [readInteger_eq_ok_iff, Memory.readInteger_eq_ok_iff_toBytes hw hw8, read_eq_ok_iff]
  have hpos := UInt64.pos_iff_ne_zero.mp hw
  refine ⟨fun v hlt hheld => ⟨hlt, ?_⟩, fun v ⟨hlt, hbs⟩ => ⟨hlt, hbs, fun i hi => ?_, ?_⟩⟩
  · have hmapped : ∀ i < w.toNat,
        ∃ s ∈ h.segments, s.region.contains (a + UInt64.ofNat i) = true := by
      intro i hi
      obtain ⟨s, hs, hin, -⟩ := hheld i hi
      exact ⟨s, hs, hin⟩
    have hend := (Memory.lt_span_of_mapped hmapped).resolve_right hpos
    refine (Memory.read_eq_some_iff hapart hw).mpr ⟨hend, Memory.length_toBytes order _ _, ?_⟩
    intro i hi
    obtain ⟨s, hs, hin, hbyte⟩ := hheld i hi
    rw [hbyte, Memory.byte?_eq hapart hs hin]
  · have hend := Memory.end_of_read hbs
    have haddr := Word.toNat_add_ofNat (a := a) (i := i) (by omega)
    obtain ⟨s, hs, hin⟩ := Memory.mapped_of_read (b := a + UInt64.ofNat i) hbs
      (UInt64.le_iff_toNat_le.mpr (by omega)) (by omega)
    refine ⟨s, hs, hin, ?_⟩
    rw [← Memory.byte?_of_read hapart hbs hi, Memory.byte?_eq hapart hs hin]
  · have hlen := Memory.length_toBytes order w.toNat v.toNat
    generalize Memory.toBytes order w.toNat v.toNat = bs at hbs hlen
    obtain ⟨u, hu⟩ := Word.exists_toNat_eq (Memory.ofBytes_lt_span order.other hw8 hlen)
    have hback := Memory.toBytes_ofBytes order bs.reverse
    rw [List.length_reverse, hlen, ← Memory.ofBytes_other, ← hu] at hback
    refine ⟨u, ⟨?_, ?_⟩, ?_, hback⟩
    · rw [hu, ← hlen]
      exact Memory.ofBytes_lt order.other bs
    · -- the same bytes are read, and the number is written with them in the other byte order
      rw [hbs, hu, ← hlen, Memory.toBytes_ofBytes]
    · rw [hu, Memory.ofBytes_other]

/-- The last byte of a segment, the only byte behind the next one and a zero that follows it are read
as three bytes in either byte order. -/
theorem integers_unevenSegments :
    Memory.Apart unevenSegments.segments ∧ (0 : UInt64) < 3 ∧ (3 : UInt64) ≤ 8 ∧
      (0x040900 : UInt64).toNat < 256 ^ (3 : UInt64).toNat ∧
      Memory.toBytes .big 3 0x040900 = [4, 9, 0] ∧
      unevenSegments.readInteger 0x1003 3 .big = .ok 0x040900 ∧
      ∃ u, unevenSegments.readInteger 0x1003 3 .little = .ok u ∧
        Memory.toBytes .big 3 u.toNat = [0, 9, 4] := by
  have hapart : Memory.Apart unevenSegments.segments := by
    unfold Memory.Apart
    decide
  have hfit : (0x040900 : UInt64).toNat < 256 ^ (3 : UInt64).toNat := by decide
  obtain ⟨hread, hwritten⟩ := integers_read_back hapart (by decide : (0 : UInt64) < 3) (by decide)
    0x1003 .big
  have hheld : ∀ i < (3 : UInt64).toNat, ∃ s ∈ unevenSegments.segments,
      s.region.contains (0x1003 + UInt64.ofNat i) = true ∧
        (Memory.toBytes .big (3 : UInt64).toNat (0x040900 : UInt64).toNat)[i]? =
          some (s.byteAt (0x1003 + UInt64.ofNat i)) := by
    decide
  have hbig := hread 0x040900 hfit hheld
  obtain ⟨-, -, -, u, hlittle, -, hreversed⟩ := hwritten 0x040900 hbig
  exact ⟨hapart, by decide, by decide, hfit, by decide, hbig, u, hlittle, hreversed⟩

end Analysis
end SliceRecovery
