import SliceRecovery.Proofs.Reading
import SliceRecovery.Proofs.Utf8
import SliceRecovery.Recovery.Slice

/-!
# SliceRecovery.Proofs.Resolving -- when a candidate leads to a slice

Each of the two steps from a candidate to a slice is characterised by what it takes to pass: the
length has to be an integer in memory over which nothing but an integer is declared, and the
string has to be of a length between zero and the limit, readable, and UTF-8. Nothing else of the
analysis is read.
-/

namespace SliceRecovery

/-- Two steps succeed when the first does and the second does on its result. -/
theorem bind_eq_ok_iff {ε α β : Type} {x : Except ε α} {f : α → Except ε β} {b : β} :
    (x >>= f) = .ok b ↔ ∃ a, x = .ok a ∧ f a = .ok b := by
  cases x with
  | error e => exact iff_of_false (fun h => nomatch h) fun ⟨_, h, _⟩ => nomatch h
  | ok a =>
    constructor
    · exact fun h => ⟨a, rfl, h⟩
    · rintro ⟨_, ha, h⟩
      cases ha
      exact h

namespace PointerCandidate

variable {h : Analysis} {arch : Architecture} {c : PointerCandidate} {field : LengthField}
  {segments : List Segment} {limit n : UInt64} {r : SliceRecord}

theorem readLength_eq_ok_iff :
    c.readLength segments arch = .ok field ↔
      ∃ n, Memory.readInteger segments c.lengthAddress arch.addressSize arch.byteOrder = .ok n ∧
        field = ⟨c.lengthAddress, n, arch.addressSize, arch.byteOrder⟩ := by
  unfold readLength
  cases Memory.readInteger segments c.lengthAddress arch.addressSize arch.byteOrder with
  | error e => simp
  | ok n => simp [eq_comm]

theorem resolveLength_eq_ok_iff :
    c.resolveLength h arch = .ok field ↔
      (∀ v, h.declared.get? c.lengthAddress = some v → v.type.kind = .integer) ∧
      c.readLength h.segments arch = .ok field := by
  unfold resolveLength
  cases hv : h.declared.get? c.lengthAddress with
  | none => simp
  | some v =>
    by_cases hk : v.type.kind = .integer
    · simp [hk]
    · simp [hk]

theorem validate_eq_ok_iff :
    c.validate segments limit n = .ok r ↔
      n ≠ 0 ∧ n < limit ∧ ∃ bs text, Memory.read segments c.pointee n = some bs ∧
        Text.Utf8.read bs = .ok text ∧ r = ⟨c.source, c.pointee, n, bs, text⟩ := by
  unfold validate
  by_cases h0 : n = 0
  · simp [h0]
  · rw [if_neg h0]
    by_cases hl : limit ≤ n
    · rw [if_pos hl]
      simp [UInt64.not_lt.mpr hl]
    · rw [if_neg hl]
      cases hr : Memory.read segments c.pointee n with
      | none => simp
      | some bs =>
        cases ht : Text.Utf8.read bs with
        | error p => simp [ht]
        | ok text => simp [ht, h0, UInt64.not_le.mp hl, eq_comm]

/-- What an accepted slice is: the string of the stored length at the pointee. -/
theorem resolve_eq_ok_iff :
    c.resolve h arch limit = .ok r ↔
      (∀ v, h.declared.get? c.lengthAddress = some v → v.type.kind = .integer) ∧
      Memory.readInteger h.segments c.lengthAddress arch.addressSize arch.byteOrder
        = .ok r.length ∧
      r.length ≠ 0 ∧ r.length < limit ∧
      Memory.read h.segments c.pointee r.length = some r.bytes ∧
      Text.Utf8.read r.bytes = .ok r.text ∧
      r.pointerAddress = c.source ∧ r.dataAddress = c.pointee := by
  unfold resolve
  rw [bind_eq_ok_iff]
  constructor
  · rintro ⟨field, hfield, hr⟩
    obtain ⟨hdecl, hfield⟩ := resolveLength_eq_ok_iff.mp hfield
    obtain ⟨n, hn, rfl⟩ := readLength_eq_ok_iff.mp hfield
    obtain ⟨h0, hl, bs, text, hbs, ht, rfl⟩ := validate_eq_ok_iff.mp hr
    exact ⟨hdecl, hn, h0, hl, hbs, ht, rfl, rfl⟩
  · rintro ⟨hdecl, hn, h0, hl, hbs, ht, hp, hd⟩
    have hfield := readLength_eq_ok_iff.mpr ⟨r.length, hn, rfl⟩
    refine ⟨_, resolveLength_eq_ok_iff.mpr ⟨hdecl, hfield⟩, ?_⟩
    refine validate_eq_ok_iff.mpr ⟨h0, hl, r.bytes, r.text, hbs, ht, ?_⟩
    rw [← hp, ← hd]

theorem pointerAddress_eq (hr : c.resolve h arch limit = .ok r) : r.pointerAddress = c.source := by
  obtain ⟨-, -, -, -, -, -, hp, -⟩ := resolve_eq_ok_iff.mp hr
  exact hp

/-- The bytes of an accepted slice do not start at the largest address. -/
theorem dataAddress_lt_top (hr : c.resolve h arch limit = .ok r) : r.dataAddress < Word.top := by
  obtain ⟨-, -, h0, -, hbs, -, -, hd⟩ := resolve_eq_ok_iff.mp hr
  rw [hd]
  exact Memory.lt_top_of_read hbs h0

end PointerCandidate
end SliceRecovery
