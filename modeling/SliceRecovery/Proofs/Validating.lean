import Mathlib.Data.List.Forall2
import Mathlib.Order.Bounds.Basic
import SliceRecovery.Proofs.Resolving

/-!
# SliceRecovery.Proofs.Validating -- which strings are accepted

The last step towards a slice reads the bytes and requires them to be UTF-8. What UTF-8 is is stated
here by the table of the Unicode standard, which knows nothing of how bytes are read: a byte string
is well-formed when it falls into sequences that lie in the ranges of a row each. Reading takes such
sequences off the front one by one, so it succeeds on what is well-formed, and where it stops it has
read the longest beginning that is.
-/

namespace SliceRecovery

namespace Text.Utf8

variable {s bs rest : List UInt8} {x : Char} {p q size : Nat}

/-! ## Well-formed bytes -/

/-- The table of well-formed sequences of the Unicode standard: for each range of lead bytes, the
least and the greatest byte at each place. -/
def sequenceTable : List (List (UInt8 × UInt8)) :=
  [[(0x00, 0x7F)],
   [(0xC2, 0xDF), (0x80, 0xBF)],
   [(0xE0, 0xE0), (0xA0, 0xBF), (0x80, 0xBF)],
   [(0xE1, 0xEC), (0x80, 0xBF), (0x80, 0xBF)],
   [(0xED, 0xED), (0x80, 0x9F), (0x80, 0xBF)],
   [(0xEE, 0xEF), (0x80, 0xBF), (0x80, 0xBF)],
   [(0xF0, 0xF0), (0x90, 0xBF), (0x80, 0xBF), (0x80, 0xBF)],
   [(0xF1, 0xF3), (0x80, 0xBF), (0x80, 0xBF), (0x80, 0xBF)],
   [(0xF4, 0xF4), (0x80, 0x8F), (0x80, 0xBF), (0x80, 0xBF)]]

/-- Bytes that lie in the ranges of a row of the table, place by place. -/
def InRow (row : List (UInt8 × UInt8)) (s : List UInt8) : Prop :=
  List.Forall₂ (fun range b => range.1 ≤ b ∧ b ≤ range.2) row s

/-- A sequence of bytes that stands for one scalar value. -/
def Sequence (s : List UInt8) : Prop := ∃ row ∈ sequenceTable, InRow row s

/-- Well-formed UTF-8: one sequence after the other and nothing else. -/
inductive WellFormed : List UInt8 → Prop
  | nil : WellFormed []
  | append {s rest : List UInt8} : Sequence s → WellFormed rest → WellFormed (s ++ rest)

theorem inRow_nil_iff : InRow [] s ↔ s = [] := List.forall₂_nil_left_iff

theorem inRow_cons_iff {low high : UInt8} {row : List (UInt8 × UInt8)} :
    InRow ((low, high) :: row) s ↔
      ∃ b r, (low.toNat ≤ b.toNat ∧ b.toNat ≤ high.toNat) ∧ InRow row r ∧ s = b :: r :=
  List.forall₂_cons_left_iff

/-- The ranges of the table are those that reading allows. -/
theorem exists_form_of_sequence (hs : Sequence s) : ∃ x, Form s x := by
  obtain ⟨row, hrow, hs⟩ := hs
  simp only [sequenceTable, List.mem_cons, List.not_mem_nil, or_false] at hrow
  rcases hrow with rfl | rfl | rfl | rfl | rfl | rfl | rfl | rfl | rfl
  all_goals
    simp only [inRow_cons_iff, inRow_nil_iff, UInt8.reduceToNat] at hs
  · obtain ⟨a, _, ha, rfl, rfl⟩ := hs
    exact ⟨_, .one (by omega)⟩
  · obtain ⟨a, _, ha, ⟨b, _, hb, rfl, rfl⟩, rfl⟩ := hs
    exact ⟨_, .two ha.1 (by omega) (isContinuation_iff.mpr hb)⟩
  -- four rows have three bytes, and three rows have four
  iterate 4
    · obtain ⟨a, _, ha, ⟨b, _, hb, ⟨c, _, hc, rfl, rfl⟩, rfl⟩, rfl⟩ := hs
      have hb : secondAllowed a b = true := secondAllowed_iff.mpr (by omega)
      exact ⟨_, .three (by omega) (by omega) hb (isContinuation_iff.mpr hc)⟩
  iterate 3
    · obtain ⟨a, _, ha, ⟨b, _, hb, ⟨c, _, hc, ⟨d, _, hd, rfl, rfl⟩, rfl⟩, rfl⟩, rfl⟩ := hs
      have hb : secondAllowed a b = true := secondAllowed_iff.mpr (by omega)
      exact ⟨_, .four (by omega) (by omega) hb (isContinuation_iff.mpr hc)
        (isContinuation_iff.mpr hd)⟩

/-- What reading takes off the front is in the table. -/
theorem Form.sequence (hs : Form s x) : Sequence s := by
  cases hs
  all_goals
    simp only [Sequence, sequenceTable, InRow, List.mem_cons, List.not_mem_nil, or_false,
      exists_eq_or_imp, exists_eq_left, List.forall₂_cons, List.forall₂_nil_left_iff,
      List.forall₂_nil_right_iff, List.cons_ne_nil, and_false, and_true, false_or,
      UInt8.le_iff_toNat_le, UInt8.reduceToNat]
  case one ha => omega
  case two hlow hhigh hb =>
    have hb := isContinuation_iff.mp hb
    omega
  case three hlow hhigh hb hc =>
    have hb := secondAllowed_iff.mp hb
    have hc := isContinuation_iff.mp hc
    omega
  case four hlow hhigh hb hc hd =>
    have hb := secondAllowed_iff.mp hb
    have hc := isContinuation_iff.mp hc
    have hd := isContinuation_iff.mp hd
    omega

theorem Form.ne_nil (hs : Form s x) : s ≠ [] := by
  cases hs <;> exact List.cons_ne_nil _ _

/-! ## Reading -/

/-- Where there is a well-formed beginning, reading takes its first sequence off the front. -/
theorem WellFormed.next?_of_take (hw : WellFormed (bs.take q)) (hne : bs ≠ []) (hq : q ≠ 0) :
    ∃ x s r, next? bs = some (x, s.length, r ++ bs.drop q) ∧ bs.take q = s ++ r ∧ WellFormed r := by
  have hbs := List.take_append_drop q bs
  generalize htake : bs.take q = front at hw hbs
  cases hw with
  | nil =>
    rcases List.take_eq_nil_iff.mp htake with h | h
    · exact absurd h hq
    · exact absurd h hne
  | @append s r hs hr =>
    obtain ⟨x, hx⟩ := exists_form_of_sequence hs
    refine ⟨x, s, r, ?_, rfl, hr⟩
    have hnext := next?_of_form hx (r ++ bs.drop q)
    rwa [← List.append_assoc, hbs] at hnext

/-- The well-formed beginnings go on after a sequence as they do from there. -/
theorem wellFormed_take_iff (hs : Form s x) (hq : q ≠ 0) :
    WellFormed ((s ++ rest).take q) ↔ s.length ≤ q ∧ WellFormed (rest.take (q - s.length)) := by
  constructor
  · intro hw
    have hne : s ++ rest ≠ [] := List.append_ne_nil_of_left_ne_nil hs.ne_nil rest
    obtain ⟨x', s', r, hnext, hsplit, hr⟩ := hw.next?_of_take hne hq
    -- there is one way to take a sequence off the front
    rw [next?_of_form hs, Option.some.injEq, Prod.mk.injEq, Prod.mk.injEq] at hnext
    obtain ⟨-, hlength, -⟩ := hnext
    have hsize := congrArg List.length hsplit
    rw [List.length_append, List.length_take] at hsize
    have hle : s.length ≤ q := by omega
    rw [List.take_append, List.take_of_length_le hle] at hsplit
    obtain ⟨-, rfl⟩ := List.append_inj hsplit hlength
    exact ⟨hle, hr⟩
  · rintro ⟨hle, hw⟩
    rw [List.take_append, List.take_of_length_le hle]
    exact .append hs.sequence hw

/-- Reading that stops has read the longest well-formed beginning. -/
theorem readFrom_eq_error {fuel offset : Nat} {read : List Char}
    (h : readFrom fuel offset read bs = .error p) (hfuel : bs.length ≤ fuel) :
    ∃ q, p = offset + q ∧ q < bs.length ∧ IsGreatest {q | WellFormed (bs.take q)} q := by
  induction fuel generalizing offset read bs with
  | zero =>
    cases bs with
    | nil => cases h
    | cons b bs => cases hfuel
  | succ fuel ih =>
    have hne : bs ≠ [] := by
      rintro rfl
      cases h
    rw [readFrom_succ hne] at h
    cases hnext : next? bs with
    | none =>
      rw [hnext] at h
      cases h
      refine ⟨0, rfl, List.length_pos_iff.mpr hne, .nil, ?_⟩
      intro q hq
      by_contra hzero
      have hq0 : q ≠ 0 := fun h => hzero (Nat.le_of_eq h)
      obtain ⟨x, s, r, hsome, -⟩ := WellFormed.next?_of_take hq hne hq0
      rw [hnext] at hsome
      cases hsome
    | some result =>
      obtain ⟨x, size, rest⟩ := result
      rw [hnext] at h
      obtain ⟨s, hs, rfl, rfl⟩ := form_of_next? hnext
      have hpos := List.length_pos_iff.mpr hs.ne_nil
      rw [List.length_append] at hfuel ⊢
      obtain ⟨q, rfl, hlt, hmem, hgreatest⟩ := ih h (by omega)
      refine ⟨s.length + q, by omega, by omega, ?_, ?_⟩
      · refine (wellFormed_take_iff hs (by omega)).mpr ⟨by omega, ?_⟩
        rwa [Nat.add_sub_cancel_left]
      · intro q' hq'
        by_cases hzero : q' = 0
        · omega
        · obtain ⟨hle, hw⟩ := (wellFormed_take_iff hs hzero).mp hq'
          have := hgreatest hw
          omega

/-- Bytes that are not read have a longest well-formed beginning, which is not all of them, and
reading says how long it is. -/
theorem read_eq_error (h : read bs = .error p) :
    p < bs.length ∧ IsGreatest {q | WellFormed (bs.take q)} p := by
  unfold read at h
  cases hr : readFrom bs.length 0 [] bs with
  | ok cs =>
    rw [hr] at h
    cases h
  | error n =>
    rw [hr] at h
    cases h
    obtain ⟨q, rfl, hlt, hgreatest⟩ := readFrom_eq_error hr (Nat.le_refl _)
    rw [Nat.zero_add]
    exact ⟨hlt, hgreatest⟩

/-- The UTF-8 form of a text is well-formed. -/
theorem wellFormed_bytes (text : String) : WellFormed (bytes text) := by
  unfold bytes
  induction text.toList with
  | nil => exact .nil
  | cons x xs ih => exact .append (form_utf8EncodeChar x).sequence ih

/-- What is read is what is well-formed. -/
theorem exists_read_eq_ok_iff : (∃ text, read bs = .ok text) ↔ WellFormed bs := by
  constructor
  · rintro ⟨text, ht⟩
    rw [← bytes_of_read ht]
    exact wellFormed_bytes text
  · intro hw
    cases hr : read bs with
    | ok text => exact ⟨text, rfl⟩
    | error p =>
      obtain ⟨hlt, hgreatest⟩ := read_eq_error hr
      have hle : bs.length ≤ p := hgreatest.2 (by rwa [Set.mem_ofPred_eq, List.take_length])
      omega

end Text.Utf8

namespace PointerCandidate

variable {c : PointerCandidate} {segments : List Segment} {limit n : UInt64} {reason : RejectReason}

/-- A candidate is rejected for the first reason that applies. -/
theorem validate_eq_error_iff :
    c.validate segments limit n = .error reason ↔
      (n = 0 ∧ reason = .zeroLength) ∨
      (n ≠ 0 ∧ limit ≤ n ∧ reason = .tooLong n limit) ∨
      (n ≠ 0 ∧ n < limit ∧ Memory.read segments c.pointee n = none ∧
        reason = .readFailure c.pointee n) ∨
      (n ≠ 0 ∧ n < limit ∧ ∃ bs, Memory.read segments c.pointee n = some bs ∧
        ∃ p, Text.Utf8.read bs = .error p ∧ reason = .decodeFailure (UInt64.ofNat p)) := by
  unfold validate
  by_cases h0 : n = 0
  · simp [h0, eq_comm]
  · rw [if_neg h0]
    by_cases hl : limit ≤ n
    · rw [if_pos hl]
      simp [h0, hl, UInt64.not_lt.mpr hl, eq_comm]
    · rw [if_neg hl]
      have hlt := UInt64.not_le.mp hl
      cases hr : Memory.read segments c.pointee n with
      | none => simp [h0, hl, hlt, eq_comm]
      | some bs =>
        cases ht : Text.Utf8.read bs with
        | error p => simp [h0, hl, hlt, ht, eq_comm]
        | ok text => simp [h0, hl, hlt, ht]

/-- Bytes that were read but are no UTF-8 are ill-formed, and what is reported of them is the length
of the longest well-formed beginning. -/
theorem decodeFailure_iff {bs : List UInt8} (hbs : Memory.read segments c.pointee n = some bs) :
    (∃ p, Text.Utf8.read bs = .error p ∧ reason = .decodeFailure (UInt64.ofNat p)) ↔
      ¬ Text.Utf8.WellFormed bs ∧ ∃ p : UInt64,
        IsGreatest {q | Text.Utf8.WellFormed (bs.take q)} p.toNat ∧ reason = .decodeFailure p := by
  have hlength := Memory.length_read hbs
  constructor
  · rintro ⟨p, hp, rfl⟩
    obtain ⟨hlt, hgreatest⟩ := Text.Utf8.read_eq_error hp
    refine ⟨?_, UInt64.ofNat p, ?_, rfl⟩
    · intro hw
      obtain ⟨text, ht⟩ := Text.Utf8.exists_read_eq_ok_iff.mpr hw
      rw [hp] at ht
      cases ht
    · rwa [UInt64.toNat_ofNat_of_lt' (Nat.lt_trans (hlength ▸ hlt) n.toNat_lt_size)]
  · rintro ⟨hill, p, hgreatest, rfl⟩
    cases ht : Text.Utf8.read bs with
    | ok text => exact absurd (Text.Utf8.exists_read_eq_ok_iff.mp ⟨text, ht⟩) hill
    | error q =>
      refine ⟨q, rfl, ?_⟩
      rw [(Text.Utf8.read_eq_error ht).2.unique hgreatest, UInt64.ofNat_toNat]

/-- **Exactly the bounded well-formed strings are accepted.** For every memory, candidate, limit and
length: a string is accepted just when its length is above zero and below the limit, its bytes can
be read, and they are well-formed UTF-8; the record then holds the addresses of the candidate, the
bytes, and the text that has them as its form. Otherwise the reason is the first of the four that
applies, and bytes that are ill-formed are reported with the length of their longest well-formed
beginning. -/
theorem validate_exact (c : PointerCandidate) (segments : List Segment) (limit n : UInt64) :
    ((∃ r, c.validate segments limit n = .ok r) ↔
        0 < n ∧ n < limit ∧
          ∃ bs, Memory.read segments c.pointee n = some bs ∧ Text.Utf8.WellFormed bs) ∧
      (∀ r, c.validate segments limit n = .ok r →
        r.pointerAddress = c.source ∧ r.dataAddress = c.pointee ∧ r.length = n ∧
          Memory.read segments c.pointee n = some r.bytes ∧ Text.Utf8.bytes r.text = r.bytes) ∧
      (∀ reason, c.validate segments limit n = .error reason ↔
        (n = 0 ∧ reason = .zeroLength) ∨
        (0 < n ∧ limit ≤ n ∧ reason = .tooLong n limit) ∨
        (0 < n ∧ n < limit ∧ Memory.read segments c.pointee n = none ∧
          reason = .readFailure c.pointee n) ∨
        (0 < n ∧ n < limit ∧ ∃ bs, Memory.read segments c.pointee n = some bs ∧
          ¬ Text.Utf8.WellFormed bs ∧ ∃ p : UInt64,
            IsGreatest {q | Text.Utf8.WellFormed (bs.take q)} p.toNat ∧
            reason = .decodeFailure p)) := by
  simp only [UInt64.pos_iff_ne_zero]
  refine ⟨⟨?_, ?_⟩, ?_, ?_⟩
  · rintro ⟨r, hr⟩
    obtain ⟨h0, hl, bs, text, hbs, ht, -⟩ := validate_eq_ok_iff.mp hr
    exact ⟨h0, hl, bs, hbs, Text.Utf8.exists_read_eq_ok_iff.mp ⟨text, ht⟩⟩
  · rintro ⟨h0, hl, bs, hbs, hw⟩
    obtain ⟨text, ht⟩ := Text.Utf8.exists_read_eq_ok_iff.mpr hw
    exact ⟨_, validate_eq_ok_iff.mpr ⟨h0, hl, bs, text, hbs, ht, rfl⟩⟩
  · intro r hr
    obtain ⟨-, -, bs, text, hbs, ht, rfl⟩ := validate_eq_ok_iff.mp hr
    exact ⟨rfl, rfl, rfl, hbs, Text.Utf8.bytes_of_read ht⟩
  · intro reason
    rw [validate_eq_error_iff]
    -- the first three reasons are read off, only the last one says more
    refine or_congr_right (or_congr_right (or_congr_right ?_))
    refine and_congr_right fun _ => and_congr_right fun _ => exists_congr fun bs => ?_
    exact and_congr_right decodeFailure_iff

end PointerCandidate
end SliceRecovery
