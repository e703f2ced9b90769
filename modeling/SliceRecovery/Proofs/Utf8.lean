import SliceRecovery.Text.Utf8

/-!
# SliceRecovery.Proofs.Utf8 -- strict reading inverts writing

What strict reading accepts is the UTF-8 form of the text it returns. The step that carries this is
`next?_eq_some`: the bytes taken off the front are the form of the character they were read as. What
can be taken off is said once, by `Form`, with one case for each length of a sequence, and in each
the payload bits put together and taken apart again are linear arithmetic.
-/

namespace SliceRecovery.Text.Utf8

variable {bs rest : List UInt8} {a b c d : UInt8} {x : Char} {n size : Nat}

/-! ## Numbers behind the tests -/

theorem toNat_ofNat_of_isValid (h : n.isValidChar) : (Char.ofNat n).val.toNat = n := by
  unfold Char.ofNat
  rw [dif_pos h]
  rfl

theorem byte_eq (h : n = b.toNat) : UInt8.ofNat n = b := by
  rw [h]
  exact UInt8.ofNat_toNat

theorem isContinuation_iff : isContinuation b = true ↔ 0x80 ≤ b.toNat ∧ b.toNat ≤ 0xBF := by
  unfold isContinuation
  rw [Bool.and_eq_true, decide_eq_true_iff, decide_eq_true_iff]
  exact Iff.rfl

/-- What may stand second: a continuation byte, with the ranges that keep forms shortest, leave
surrogates out and end at the last scalar value. -/
theorem secondAllowed_iff :
    secondAllowed a b = true ↔
      0x80 ≤ b.toNat ∧ b.toNat ≤ 0xBF ∧ (a.toNat = 0xE0 → 0xA0 ≤ b.toNat) ∧
        (a.toNat = 0xED → b.toNat ≤ 0x9F) ∧ (a.toNat = 0xF0 → 0x90 ≤ b.toNat) ∧
        (a.toNat = 0xF4 → b.toNat ≤ 0x8F) := by
  unfold secondAllowed isContinuation
  simp only [← UInt8.toNat_inj]
  repeat' split
  all_goals
    simp only [Bool.and_eq_true, decide_eq_true_eq, UInt8.le_iff_toNat_le]
    simp only [UInt8.reduceToNat] at *
    omega

/-! ## The forms of the four lengths -/

/-- A byte below the first lead byte is the form of itself. -/
theorem form_one (ha : a.toNat < 0x80) : String.utf8EncodeChar (Char.ofNat a.toNat) = [a] := by
  have hv : a.toNat.isValidChar := Or.inl (by omega)
  unfold String.utf8EncodeChar
  rw [toNat_ofNat_of_isValid hv, if_pos (by omega), UInt8.ofNat_toNat]

/-- Two bytes are the form of what they say; the lead byte keeps the form shortest. -/
theorem form_two (hlow : 0xC2 ≤ a.toNat) (hhigh : a.toNat < 0xE0) (hb : isContinuation b = true) :
    String.utf8EncodeChar (Char.ofNat (a.toNat % 32 * 64 + payload b)) = [a, b] := by
  have hb := isContinuation_iff.mp hb
  unfold payload
  generalize hn : a.toNat % 32 * 64 + b.toNat % 64 = n
  have hv : n.isValidChar := Or.inl (by omega)
  unfold String.utf8EncodeChar
  rw [toNat_ofNat_of_isValid hv, if_neg (by omega), if_pos (by omega), byte_eq (b := a) (by omega),
    byte_eq (b := b) (by omega)]

/-- Three bytes are the form of what they say; the second keeps it shortest and off surrogates. -/
theorem form_three (hlow : 0xE0 ≤ a.toNat) (hhigh : a.toNat < 0xF0)
    (hb : secondAllowed a b = true) (hc : isContinuation c = true) :
    String.utf8EncodeChar (Char.ofNat (a.toNat % 16 * 4096 + payload b * 64 + payload c)) =
      [a, b, c] := by
  obtain ⟨hb1, hb2, hshort, hsurrogate, -, -⟩ := secondAllowed_iff.mp hb
  have hc := isContinuation_iff.mp hc
  unfold payload
  generalize hn : a.toNat % 16 * 4096 + b.toNat % 64 * 64 + c.toNat % 64 = n
  have hscalar : n < 0xD800 ∨ 0xDFFF < n := by omega
  have hv : n.isValidChar := hscalar.imp id fun h => ⟨h, by omega⟩
  unfold String.utf8EncodeChar
  rw [toNat_ofNat_of_isValid hv, if_neg (by omega), if_neg (by omega), if_pos (by omega),
    byte_eq (b := a) (by omega), byte_eq (b := b) (by omega), byte_eq (b := c) (by omega)]

/-- Four bytes are the form of what they say; the second keeps it shortest and in range. -/
theorem form_four (hlow : 0xF0 ≤ a.toNat) (hhigh : a.toNat ≤ 0xF4)
    (hb : secondAllowed a b = true) (hc : isContinuation c = true) (hd : isContinuation d = true) :
    String.utf8EncodeChar (Char.ofNat
      (a.toNat % 8 * 262144 + payload b * 4096 + payload c * 64 + payload d)) = [a, b, c, d] := by
  obtain ⟨hb1, hb2, -, -, hshort, hrange⟩ := secondAllowed_iff.mp hb
  have hc := isContinuation_iff.mp hc
  have hd := isContinuation_iff.mp hd
  unfold payload
  generalize hn :
    a.toNat % 8 * 262144 + b.toNat % 64 * 4096 + c.toNat % 64 * 64 + d.toNat % 64 = n
  have hv : n.isValidChar := Or.inr ⟨by omega, by omega⟩
  unfold String.utf8EncodeChar
  rw [toNat_ofNat_of_isValid hv, if_neg (by omega), if_neg (by omega), if_neg (by omega),
    byte_eq (b := a) (by omega), byte_eq (b := b) (by omega), byte_eq (b := c) (by omega),
    byte_eq (b := d) (by omega)]

/-! ## Sequences -/

/-- A sequence of bytes that reading takes off the front in one step, and the scalar value it is
read as. -/
inductive Form : List UInt8 → Char → Prop
  | one {a : UInt8} : a.toNat < 0x80 → Form [a] (Char.ofNat a.toNat)
  | two {a b : UInt8} :
      0xC2 ≤ a.toNat → a.toNat < 0xE0 → isContinuation b = true →
      Form [a, b] (Char.ofNat (a.toNat % 32 * 64 + payload b))
  | three {a b c : UInt8} :
      0xE0 ≤ a.toNat → a.toNat < 0xF0 → secondAllowed a b = true → isContinuation c = true →
      Form [a, b, c] (Char.ofNat (a.toNat % 16 * 4096 + payload b * 64 + payload c))
  | four {a b c d : UInt8} :
      0xF0 ≤ a.toNat → a.toNat ≤ 0xF4 → secondAllowed a b = true → isContinuation c = true →
      isContinuation d = true →
      Form [a, b, c, d] (Char.ofNat
        (a.toNat % 8 * 262144 + payload b * 4096 + payload c * 64 + payload d))

/-- What is taken off the front is a sequence, and it is taken off whole. -/
theorem form_of_next? (h : next? bs = some (x, size, rest)) :
    ∃ s, Form s x ∧ size = s.length ∧ bs = s ++ rest := by
  unfold next? at h
  split at h
  · cases h
  · rename_i a r1
    simp only [UInt8.lt_iff_toNat_lt, gt_iff_lt, UInt8.reduceToNat] at h
    split at h
    · rename_i hone
      cases h
      exact ⟨_, .one hone, rfl, rfl⟩
    · split at h
      · cases h
      · rename_i hlow
        split at h
        · cases h
        · rename_i b r2
          split at h
          · rename_i hhigh
            split at h
            · rename_i hb
              cases h
              exact ⟨_, .two (by omega) hhigh hb, rfl, rfl⟩
            · cases h
          · -- a lead byte of three or four, which restricts the second byte
            split at h
            · cases h
            · rename_i hlow hlead
              rw [Bool.or_eq_true, not_or, Bool.not_eq_true', Bool.not_eq_false,
                decide_eq_true_iff] at hlead
              obtain ⟨htop, hb⟩ := hlead
              split at h
              · cases h
              · rename_i c r3
                split at h
                · cases h
                · rename_i hc
                  rw [Bool.not_eq_true', Bool.not_eq_false] at hc
                  split at h
                  · rename_i hhigh
                    cases h
                    exact ⟨_, .three (by omega) hhigh hb hc, rfl, rfl⟩
                  · rename_i hfour
                    split at h
                    · cases h
                    · rename_i d r4
                      split at h
                      · cases h
                      · rename_i hd
                        rw [Bool.not_eq_true', Bool.not_eq_false] at hd
                        cases h
                        exact ⟨_, .four (by omega) (by omega) hb hc hd, rfl, rfl⟩

/-- A sequence is taken off the front of whatever follows it. -/
theorem next?_of_form {s : List UInt8} (hs : Form s x) (rest : List UInt8) :
    next? (s ++ rest) = some (x, s.length, rest) := by
  cases hs with
  | one ha =>
    simp only [next?, List.cons_append, List.nil_append, UInt8.lt_iff_toNat_lt, UInt8.reduceToNat]
    rw [if_pos ha]
    rfl
  | two hlow hhigh hb =>
    simp only [next?, List.cons_append, List.nil_append, UInt8.lt_iff_toNat_lt, UInt8.reduceToNat]
    rw [if_neg (by omega), if_neg (by omega), if_pos hhigh, if_pos hb]
    rfl
  | three hlow hhigh hb hc =>
    simp only [next?, List.cons_append, List.nil_append, UInt8.lt_iff_toNat_lt, gt_iff_lt,
      UInt8.reduceToNat, hb, hc, Bool.not_true, Bool.or_false]
    rw [if_neg (by omega), if_neg (by omega), if_neg (by omega), if_neg (by simp; omega),
      if_neg (by decide), if_pos hhigh]
    rfl
  | four hlow hhigh hb hc hd =>
    simp only [next?, List.cons_append, List.nil_append, UInt8.lt_iff_toNat_lt, gt_iff_lt,
      UInt8.reduceToNat, hb, hc, hd, Bool.not_true, Bool.or_false]
    rw [if_neg (by omega), if_neg (by omega), if_neg (by omega), if_neg (by simp; omega),
      if_neg (by decide), if_neg (by omega), if_neg (by decide)]
    rfl

/-- A sequence is the UTF-8 form of what it is read as. -/
theorem Form.encode {s : List UInt8} (hs : Form s x) : String.utf8EncodeChar x = s := by
  cases hs with
  | one ha => exact form_one ha
  | two hlow hhigh hb => exact form_two hlow hhigh hb
  | three hlow hhigh hb hc => exact form_three hlow hhigh hb hc
  | four hlow hhigh hb hc hd => exact form_four hlow hhigh hb hc hd

theorem Form.of_eq {s : List UInt8} {y : Char} (hs : Form s y) (hy : y = x) : Form s x := hy ▸ hs

/-- The UTF-8 form of every character is a sequence that is read as the character. -/
theorem form_utf8EncodeChar (x : Char) : Form (String.utf8EncodeChar x) x := by
  have hvalid : x.toNat < 0xD800 ∨ 0xDFFF < x.toNat ∧ x.toNat < 0x110000 := x.valid
  have hchar : ∀ n, n = x.toNat → Char.ofNat n = x := by
    rintro n rfl
    exact Char.ofNat_toNat x
  have htoNat : ∀ n, (UInt8.ofNat n).toNat = n % 256 := fun n => UInt8.toNat_ofNat'
  unfold String.utf8EncodeChar
  simp only [show x.val.toNat = x.toNat from rfl]
  generalize x.toNat = n at hvalid hchar ⊢
  split
  · refine (Form.one ?_).of_eq (hchar _ ?_)
    all_goals
      rw [htoNat]
      omega
  split
  · refine (Form.two ?_ ?_ (isContinuation_iff.mpr ?_)).of_eq (hchar _ ?_)
    all_goals
      simp only [payload, htoNat]
      omega
  split
  · refine (Form.three ?_ ?_ (secondAllowed_iff.mpr ?_) (isContinuation_iff.mpr ?_)).of_eq
      (hchar _ ?_)
    all_goals
      simp only [payload, htoNat]
      omega
  · refine (Form.four ?_ ?_ (secondAllowed_iff.mpr ?_) (isContinuation_iff.mpr ?_)
      (isContinuation_iff.mpr ?_)).of_eq (hchar _ ?_)
    all_goals
      simp only [payload, htoNat]
      omega

/-! ## Reading -/

/-- The bytes that a character was read from are its UTF-8 form. -/
theorem next?_eq_some (h : next? bs = some (x, size, rest)) :
    bs = String.utf8EncodeChar x ++ rest := by
  obtain ⟨s, hs, -, rfl⟩ := form_of_next? h
  rw [hs.encode]

theorem readFrom_succ {fuel offset : Nat} {read : List Char} (hne : bs ≠ []) :
    readFrom (fuel + 1) offset read bs =
      match next? bs with
      | some (c, size, rest) => readFrom fuel (offset + size) (c :: read) rest
      | none => .error offset := by
  cases bs with
  | nil => exact absurd rfl hne
  | cons b bs => rfl

theorem readFrom_eq_ok {fuel offset : Nat} {read cs : List Char}
    (h : readFrom fuel offset read bs = .ok cs) :
    ∃ new, cs = read.reverse ++ new ∧ new.flatMap String.utf8EncodeChar = bs := by
  induction fuel generalizing offset read bs with
  | zero =>
    cases bs with
    | nil =>
      cases h
      exact ⟨[], by simp, rfl⟩
    | cons b bs => cases h
  | succ fuel ih =>
    cases bs with
    | nil =>
      cases h
      exact ⟨[], by simp, rfl⟩
    | cons b bs =>
      unfold readFrom at h
      split at h
      · rename_i c size rest hnext
        obtain ⟨new, rfl, hnew⟩ := ih h
        refine ⟨c :: new, by simp, ?_⟩
        rw [List.flatMap_cons, hnew, next?_eq_some hnext]
      · cases h

/-- A text that was read has the bytes it was read from as its UTF-8 form. -/
theorem bytes_of_read {text : String} (h : read bs = .ok text) : bytes text = bs := by
  unfold read at h
  cases hr : readFrom bs.length 0 [] bs with
  | error n =>
    rw [hr] at h
    cases h
  | ok cs =>
    rw [hr] at h
    cases h
    obtain ⟨new, rfl, hnew⟩ := readFrom_eq_ok hr
    unfold bytes
    rw [String.toList_ofList]
    exact hnew

theorem readFrom_encode {fuel offset : Nat} {read cs : List Char}
    (hfuel : (cs.flatMap String.utf8EncodeChar).length ≤ fuel) :
    readFrom fuel offset read (cs.flatMap String.utf8EncodeChar) = .ok (read.reverse ++ cs) := by
  induction cs generalizing fuel offset read with
  | nil =>
    rw [List.append_nil]
    cases fuel <;> rfl
  | cons c cs ih =>
    have hform := form_utf8EncodeChar c
    have hlength : ∀ s, Form s c → 0 < s.length := fun s hs => by
      cases hs <;> exact Nat.succ_pos _
    have hpos := hlength _ hform
    rw [List.flatMap_cons, List.length_append] at hfuel
    obtain ⟨fuel, rfl⟩ : ∃ n, fuel = n + 1 := ⟨fuel - 1, by omega⟩
    have hne : String.utf8EncodeChar c ++ cs.flatMap String.utf8EncodeChar ≠ [] :=
      List.append_ne_nil_of_left_ne_nil (List.length_pos_iff.mp hpos) _
    rw [List.flatMap_cons, readFrom_succ hne, next?_of_form hform]
    dsimp only
    rw [ih (by omega), List.reverse_cons, List.append_assoc]
    rfl

/-- The UTF-8 form of a text is read as the text. -/
theorem read_bytes (text : String) : read (bytes text) = .ok text := by
  unfold read bytes
  rw [readFrom_encode (Nat.le_refl _)]
  exact congrArg Except.ok String.ofList_toList

end SliceRecovery.Text.Utf8
