/-!
# SliceRecovery.Word -- capped and checked arithmetic on 64-bit words

Addresses, widths and lengths are 64-bit words. Three kinds of arithmetic occur and are kept
apart by name: the wrapping operators of `UInt64` itself, the *capped* ones that stop at the
largest word, and the *checked* ones that have no result when the exact one does not fit. Each
capped or checked operation is the exact operation on natural numbers followed by one of the two
ways back into words, so that its law is read off directly.
-/

namespace SliceRecovery

/-- Place of a byte in the address space. -/
abbrev Address := UInt64

namespace Word

/-- Number of distinct words, 2^64. -/
def span : Nat := 18446744073709551616

/-- Number of words that are not negative when read as signed numbers, 2^63. -/
def half : Nat := 9223372036854775808

/-- Largest word. -/
def top : UInt64 := 0xFFFFFFFFFFFFFFFF

/-- The word nearest to a natural number. -/
def clamp (n : Nat) : UInt64 := UInt64.ofNat (min n (span - 1))

/-- The word equal to a natural number, if there is one. -/
def fit? (n : Nat) : Option UInt64 := if n < span then some (UInt64.ofNat n) else none

/-- Sum, capped at the largest word. -/
def addCapped (a b : UInt64) : UInt64 := clamp (a.toNat + b.toNat)

/-- Product, capped at the largest word. -/
def mulCapped (a b : UInt64) : UInt64 := clamp (a.toNat * b.toNat)

/-- Difference, stopping at zero. -/
def subFloored (a b : UInt64) : UInt64 := UInt64.ofNat (a.toNat - b.toNat)

/-- Sum, if it is a word. -/
def add? (a b : UInt64) : Option UInt64 := fit? (a.toNat + b.toNat)

/-- Product, if it is a word. -/
def mul? (a b : UInt64) : Option UInt64 := fit? (a.toNat * b.toNat)

theorem toNat_clamp (n : Nat) : (clamp n).toNat = min n (span - 1) := by
  simp only [clamp, UInt64.toNat_ofNat', span]
  omega

theorem toNat_addCapped (a b : UInt64) :
    (addCapped a b).toNat = min (a.toNat + b.toNat) (span - 1) :=
  toNat_clamp _

theorem toNat_mulCapped (a b : UInt64) :
    (mulCapped a b).toNat = min (a.toNat * b.toNat) (span - 1) :=
  toNat_clamp _

theorem toNat_subFloored (a b : UInt64) : (subFloored a b).toNat = a.toNat - b.toNat := by
  have := a.toNat_lt
  simp only [subFloored, UInt64.toNat_ofNat']
  omega

theorem fit?_eq_some_iff {n : Nat} {w : UInt64} : fit? n = some w ↔ n = w.toNat := by
  have := w.toNat_lt
  unfold fit? span
  split
  · rename_i h
    rw [Option.some.injEq]
    constructor
    · rintro rfl
      simp only [UInt64.toNat_ofNat']
      omega
    · rintro rfl
      simp
  · constructor
    · intro h
      cases h
    · intro h
      omega

theorem add?_eq_some_iff {a b c : UInt64} : add? a b = some c ↔ a.toNat + b.toNat = c.toNat :=
  fit?_eq_some_iff

theorem mul?_eq_some_iff {a b c : UInt64} : mul? a b = some c ↔ a.toNat * b.toNat = c.toNat :=
  fit?_eq_some_iff

/-- Every number below the number of words is a word. -/
theorem exists_toNat_eq {n : Nat} (hn : n < span) : ∃ w : UInt64, w.toNat = n :=
  ⟨UInt64.ofNat n, UInt64.toNat_ofNat_of_lt' hn⟩

theorem lt_top_iff {a : UInt64} : a < top ↔ a.toNat < span - 1 := UInt64.lt_iff_toNat_lt

theorem lt_top_of_ne {a : UInt64} (h : a ≠ top) : a < top := by
  rw [lt_top_iff, span]
  have hlt := a.toNat_lt
  have hne : a.toNat ≠ top.toNat := fun he => h (UInt64.toNat_inj.mp he)
  rw [show top.toNat = 18446744073709551615 from rfl] at hne
  omega

/-! ## Signed reading of a word -/

/-- The signed number with the same 64 bits. -/
def signed (w : UInt64) : Int := if w.toNat < half then w.toNat else (w.toNat : Int) - span

/-- The word with the same 64 bits as a signed number. -/
def ofSigned (i : Int) : UInt64 := UInt64.ofNat (i % (span : Int)).toNat

/-- A word as a signed number of 64 bits. -/
instance coeInt64 : Coe UInt64 Int64 := ⟨UInt64.toInt64⟩

end Word
end SliceRecovery
