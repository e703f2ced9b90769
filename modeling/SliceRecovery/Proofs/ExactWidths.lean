import Mathlib.Order.Bounds.Basic
import SliceRecovery.Proofs.Widths

/-!
# SliceRecovery.Proofs.ExactWidths -- widths are exact

The width of a type is computed on words and by following names sixteen steps deep. Here the width
is described first, on natural numbers and with no bound on anything: the boundary of a field is the
least power of two that covers it, a field starts at the next multiple of its boundary, the fields
of a type end where the last of them does. What is computed is compared with that.

A width is known just where names are defined, nesting is not too deep and everything fits, and is
exact then. Where something does not fit, the width is not always unknown. A sum that is no word makes
it so, but a field that is placed past the largest word is an overflow. As fields are measured in
their order, the first of the two that is met decides.
-/

namespace SliceRecovery

namespace TypeTable

variable {table : TypeTable} {t u v : DataType} {k j n m depth : Nat} {w : UInt64}

/-! ## Nesting -/

/-- One nesting step down from a type: to the element of an array or to a field of a named type. The
target of a pointer is not nested in it. -/
inductive Nests (table : TypeTable) : DataType → DataType → Prop
  | element (e : DataType) (count : UInt64) : Nests table (.array e count) e
  | field {name : String} {c : Composite} {f : Field} :
      table.get? name = some c → f ∈ c.fields → Nests table (.named name) f.type

/-- A type is reached from another in a number of nesting steps. -/
inductive Reaches (table : TypeTable) : Nat → DataType → DataType → Prop
  | here (t : DataType) : Reaches table 0 t t
  | step {k : Nat} {t u v : DataType} :
      Nests table t u → Reaches table k u v → Reaches table (k + 1) t v

/-- Every name that is reached from a type is defined. -/
def Defined (table : TypeTable) (t : DataType) : Prop :=
  ∀ k name, Reaches table k t (.named name) → (table.get? name).isSome

/-- Fewer than a number of nesting steps lead down from a type. -/
def DepthBelow (table : TypeTable) (depth : Nat) (t : DataType) : Prop :=
  ∀ k u, Reaches table k t u → k < depth

/-! ## Exact layout -/

/-- `b` is the boundary of a field: the least power of two that is not below the width, the width
being held between 1 and 8. -/
def IsBoundary (width b : Nat) : Prop :=
  IsLeast {p | p.isPowerOfTwo ∧ max 1 (min width 8) ≤ p} b

/-- `start` is the next multiple of a boundary from an offset on. -/
def IsRoundedUp (b offset start : Nat) : Prop := IsLeast {p | b ∣ p ∧ offset ≤ p} start

/-- `start` is where a field of a width is placed after an offset. -/
def Starts (packed : Bool) (offset width start : Nat) : Prop :=
  if packed then start = offset else ∃ b, IsBoundary width b ∧ IsRoundedUp b offset start

/-- Fields that are placed one after the other from an offset on end at an offset, each having the
width that `widths` relates to its type. -/
inductive Ends (widths : DataType → Nat → Prop) : Nat → Bool → List Field → Nat → Prop
  | nil (offset : Nat) (packed : Bool) : Ends widths offset packed [] offset
  | cons {offset width start stop : Nat} {packed : Bool} {f : Field} {fs : List Field} :
      widths f.type width → Starts packed offset width start →
      Ends widths (start + width) packed fs stop → Ends widths offset packed (f :: fs) stop

/-- The exact width of a type, whether or not it is a word. Only the width of an array is capped. -/
inductive HasWidth (table : TypeTable) : DataType → Nat → Prop
  | pointer (w : UInt64) (target : Option DataType) : HasWidth table (.pointer w target) w.toNat
  | integer (w : UInt64) (signed : Bool) : HasWidth table (.integer w signed) w.toNat
  | char : HasWidth table .char 1
  | raw (w : UInt64) : HasWidth table (.raw w) w.toNat
  | array {e : DataType} {n : Nat} (count : UInt64) :
      HasWidth table e n → HasWidth table (.array e count) (min (n * count.toNat) Word.top.toNat)
  | named {name : String} {c : Composite} {n : Nat} :
      table.get? name = some c → Ends (HasWidth table) 0 c.packed c.fields n →
      HasWidth table (.named name) n

/-- Every type that is reached, the type itself included, has an exact width that is a word. -/
def Fits (table : TypeTable) (t : DataType) : Prop :=
  ∀ k u n, Reaches table k t u → HasWidth table u n → n < Word.span

/-- What it takes for `n` to be the width of a type that may be nested fewer than `depth` steps
deep. -/
structure IsWidth (table : TypeTable) (depth : Nat) (t : DataType) (n : Nat) : Prop where
  defined : Defined table t
  shallow : DepthBelow table depth t
  fits : Fits table t
  width : HasWidth table t n

/-! ## Overflows -/

/-- Among fields that are placed one after the other from an offset on, there is one that overflows,
and those in front of it end at a word: its type is one of those that `stops` tells, or it is placed
past the largest word. -/
inductive FieldOverflows (widths : DataType → Nat → Prop) (stops : DataType → Prop) :
    Nat → Bool → List Field → Prop
  | type {offset : Nat} {packed : Bool} {f : Field} {fs : List Field} :
      stops f.type → FieldOverflows widths stops offset packed (f :: fs)
  | start {offset width start : Nat} {packed : Bool} {f : Field} {fs : List Field} :
      widths f.type width → Starts packed offset width start → Word.span ≤ start →
      FieldOverflows widths stops offset packed (f :: fs)
  | later {offset width start : Nat} {packed : Bool} {f : Field} {fs : List Field} :
      widths f.type width → Starts packed offset width start → start + width < Word.span →
      FieldOverflows widths stops (start + width) packed fs →
      FieldOverflows widths stops offset packed (f :: fs)

/-- Measuring a type that may be nested fewer than `depth` steps deep overflows. -/
def Overflows (table : TypeTable) : (depth : Nat) → DataType → Prop
  | depth + 1, .array e _ => Overflows table depth e
  | depth + 1, .named name =>
    ∃ c, table.get? name = some c ∧
      FieldOverflows (IsWidth table depth) (Overflows table depth) 0 c.packed c.fields
  | _, _ => False

/-! ## Chains -/

theorem Reaches.trans (hu : Reaches table k t u) (hv : Reaches table j u v) :
    Reaches table (k + j) t v := by
  induction hu with
  | here => rwa [Nat.zero_add]
  | step hn _ ih =>
    rw [Nat.add_right_comm]
    exact .step hn (ih hv)

/-- What contains itself contains itself as deep down as one likes. -/
theorem Reaches.repeat (hu : Reaches table (j + 1) u u) (n : Nat) :
    ∃ k, n ≤ k ∧ Reaches table k u u := by
  induction n with
  | zero => exact ⟨0, Nat.le_refl _, .here u⟩
  | succ n ih =>
    obtain ⟨k, hk, hr⟩ := ih
    exact ⟨k + (j + 1), by omega, hr.trans hu⟩

theorem not_depthBelow_of_recursive (ht : Reaches table k t u) (hu : Reaches table (j + 1) u u) :
    ¬ DepthBelow table depth t := by
  intro hd
  obtain ⟨m, hm, hr⟩ := hu.repeat depth
  have hlt := hd _ _ (ht.trans hr)
  omega

/-! ## Boundaries and offsets -/

theorem isBoundary_boundary (w : UInt64) : IsBoundary w.toNat (boundary w).toNat := by
  -- powers of two below the boundary are too small
  have hleast : ∀ e, 0 < e → 2 ^ (e - 1) < max 1 (min w.toNat 8) →
      max 1 (min w.toNat 8) ≤ 2 ^ e → IsBoundary w.toNat (2 ^ e) := by
    intro e he hlow hhigh
    refine ⟨⟨⟨e, rfl⟩, hhigh⟩, ?_⟩
    rintro p ⟨⟨k, rfl⟩, hp⟩
    by_contra hlt
    have hke : k < e := (Nat.pow_lt_pow_iff_right (by decide)).mp (Nat.lt_of_not_le hlt)
    have hle : 2 ^ k ≤ 2 ^ (e - 1) := Nat.pow_le_pow_right (by decide) (by omega)
    omega
  unfold boundary
  split
  · rename_i h1
    have h1 := UInt64.le_iff_toNat_le.mp h1
    refine ⟨⟨⟨0, rfl⟩, ?_⟩, ?_⟩
    · simp only [UInt64.toNat_one] at h1 ⊢
      omega
    · rintro p ⟨-, hp⟩
      simp only [UInt64.toNat_one]
      omega
  · rename_i h1
    have h1 := UInt64.lt_iff_toNat_lt.mp (UInt64.not_le.mp h1)
    rw [UInt64.toNat_one] at h1
    split
    · rename_i h2
      have h2 : w.toNat ≤ 2 := UInt64.le_iff_toNat_le.mp h2
      exact hleast 1 (by decide) (by omega) (by omega)
    · rename_i h2
      have h2 : 2 < w.toNat := UInt64.lt_iff_toNat_lt.mp (UInt64.not_le.mp h2)
      split
      · rename_i h4
        have h4 : w.toNat ≤ 4 := UInt64.le_iff_toNat_le.mp h4
        exact hleast 2 (by decide) (by omega) (by omega)
      · rename_i h4
        have h4 : 4 < w.toNat := UInt64.lt_iff_toNat_lt.mp (UInt64.not_le.mp h4)
        exact hleast 3 (by decide) (by omega) (by omega)

/-- The next multiple of a boundary, exactly. -/
theorem isRoundedUp_exact {b : Nat} (hb : 0 < b) (offset : Nat) :
    IsRoundedUp b offset ((if offset % b = 0 then offset / b else offset / b + 1) * b) := by
  have hdiv := Nat.div_add_mod offset b
  have hmod := Nat.mod_lt offset hb
  have hcomm := Nat.mul_comm b (offset / b)
  split
  · rename_i hzero
    refine ⟨⟨Nat.dvd_mul_left _ _, by omega⟩, ?_⟩
    rintro p ⟨-, hp⟩
    omega
  · rename_i hne
    refine ⟨⟨Nat.dvd_mul_left _ _, by rw [Nat.add_mul]; omega⟩, ?_⟩
    rintro p ⟨⟨q, rfl⟩, hp⟩
    -- a multiple that is not below the offset is above the last one before it
    have hq : offset / b < q := by
      by_contra hle
      have := Nat.mul_le_mul_left b (Nat.le_of_not_lt hle)
      omega
    rw [Nat.mul_comm b q]
    exact Nat.mul_le_mul_right b hq

/-- Rounding up gives the next multiple, if that is a word. -/
theorem roundUp?_eq_some_iff {offset b start : UInt64} (hb : 0 < b.toNat) :
    roundUp? offset b = some start ↔ IsRoundedUp b.toNat offset.toNat start.toNat := by
  have hexact := isRoundedUp_exact hb offset.toNat
  have hmod : offset % b = 0 ↔ offset.toNat % b.toNat = 0 := by
    rw [← UInt64.toNat_inj, UInt64.toNat_mod, UInt64.toNat_zero]
  -- one more than a quotient is a word, as a divisor with a remainder is above one
  have hquot : (if offset % b = 0 then offset / b else offset / b + 1).toNat =
      if offset.toNat % b.toNat = 0 then offset.toNat / b.toNat else offset.toNat / b.toNat + 1 := by
    by_cases h : offset.toNat % b.toNat = 0
    · rw [if_pos (hmod.mpr h), if_pos h, UInt64.toNat_div]
    · have hlt := offset.toNat_lt
      have hne : b.toNat ≠ 1 := fun h1 => h (h1 ▸ Nat.mod_one _)
      have hhalf : offset.toNat / b.toNat ≤ offset.toNat / 2 :=
        Nat.div_le_div_left (by omega) (by decide)
      rw [if_neg fun h' => h (hmod.mp h'), if_neg h, UInt64.toNat_add, UInt64.toNat_div,
        UInt64.toNat_one, Nat.mod_eq_of_lt (by omega)]
  rw [roundUp?, Word.mul?_eq_some_iff, hquot]
  constructor
  · intro h
    rwa [h] at hexact
  · exact hexact.unique

theorem boundary_pos (w : UInt64) : 0 < (boundary w).toNat := by
  obtain ⟨⟨⟨k, hk⟩, -⟩, -⟩ := isBoundary_boundary w
  rw [hk]
  exact Nat.two_pow_pos k

/-- Every width has a boundary, as widths above 8 do not differ. -/
theorem exists_isBoundary (width : Nat) : ∃ b, 0 < b ∧ IsBoundary width b := by
  have hb := isBoundary_boundary (UInt64.ofNat (min width 8))
  have hsmall : (UInt64.ofNat (min width 8)).toNat = min width 8 := by
    rw [UInt64.toNat_ofNat']
    omega
  refine ⟨_, boundary_pos (UInt64.ofNat (min width 8)), ?_⟩
  rwa [hsmall, IsBoundary, Nat.min_eq_left (Nat.min_le_right width 8)] at hb

theorem exists_starts (packed : Bool) (offset width : Nat) :
    ∃ start, Starts packed offset width start := by
  cases packed with
  | true => exact ⟨offset, rfl⟩
  | false =>
    obtain ⟨b, hpos, hb⟩ := exists_isBoundary width
    exact ⟨_, b, hb, isRoundedUp_exact hpos offset⟩

/-- No field is placed before the end of the one in front of it. -/
theorem Starts.le {packed : Bool} {offset width start : Nat}
    (hs : Starts packed offset width start) : offset ≤ start := by
  cases packed with
  | true => exact Nat.le_of_eq hs.symm
  | false =>
    obtain ⟨b, -, hr⟩ := hs
    exact hr.1.2

theorem Starts.unique {packed : Bool} {offset width start start' : Nat}
    (hs : Starts packed offset width start) (hs' : Starts packed offset width start') :
    start = start' := by
  cases packed with
  | true => exact hs.trans hs'.symm
  | false =>
    obtain ⟨b, hb, hr⟩ := hs
    obtain ⟨b', hb', hr'⟩ := hs'
    rw [hb.unique hb'] at hr
    exact hr.unique hr'

theorem start?_eq_some_iff {packed : Bool} {offset w start : UInt64} :
    start? packed offset w = some start ↔ Starts packed offset.toNat w.toNat start.toNat := by
  cases packed with
  | true =>
    show some offset = some start ↔ start.toNat = offset.toNat
    rw [Option.some.injEq, ← UInt64.toNat_inj, eq_comm]
  | false =>
    show roundUp? offset (boundary w) = some start ↔
      ∃ b, IsBoundary w.toNat b ∧ IsRoundedUp b offset.toNat start.toNat
    rw [roundUp?_eq_some_iff (boundary_pos w)]
    constructor
    · exact fun hr => ⟨_, isBoundary_boundary w, hr⟩
    · rintro ⟨b, hb, hr⟩
      rwa [hb.unique (isBoundary_boundary w)] at hr

/-- A field has no start just when it would be placed past the largest word. -/
theorem start?_eq_none_iff {packed : Bool} {offset w : UInt64} :
    start? packed offset w = none ↔
      ∃ start, Starts packed offset.toNat w.toNat start ∧ Word.span ≤ start := by
  constructor
  · intro hnone
    obtain ⟨start, hs⟩ := exists_starts packed offset.toNat w.toNat
    refine ⟨start, hs, ?_⟩
    by_contra hlt
    obtain ⟨v, rfl⟩ := Word.exists_toNat_eq (Nat.lt_of_not_le hlt)
    rw [start?_eq_some_iff.mpr hs] at hnone
    cases hnone
  · rintro ⟨start, hs, hpast⟩
    cases hsome : start? packed offset w with
    | none => rfl
    | some v =>
      have hlt := v.toNat_lt
      rw [(start?_eq_some_iff.mp hsome).unique hs] at hlt
      exact absurd hpast (Nat.not_le.mpr hlt)

/-- A field ends at its start plus its width. -/
theorem place_eq_known_iff_starts {packed : Bool} {offset w next : UInt64} :
    place packed offset w = .known next ↔
      ∃ start, Starts packed offset.toNat w.toNat start ∧ start + w.toNat = next.toNat := by
  simp only [place_eq_known_iff, start?_eq_some_iff, Word.add?_eq_some_iff]
  constructor
  · rintro ⟨start, hs, hend⟩
    exact ⟨start.toNat, hs, hend⟩
  · rintro ⟨start, hs, hend⟩
    -- what ends at a word starts at one
    obtain ⟨v, rfl⟩ := Word.exists_toNat_eq (Nat.lt_of_le_of_lt (Nat.le.intro hend) next.toNat_lt)
    exact ⟨v, hs, hend⟩

/-! ## Fields -/

section Fields

variable {widths widths' : DataType → Nat → Prop} {packed : Bool} {offset : Nat}
  {f : Field} {fields : List Field}

theorem ends_nil_iff : Ends widths offset packed [] n ↔ n = offset := by
  constructor
  · rintro ⟨⟩
    rfl
  · rintro rfl
    exact .nil n packed

theorem ends_cons_iff :
    Ends widths offset packed (f :: fields) n ↔
      ∃ width start, widths f.type width ∧ Starts packed offset width start ∧
        Ends widths (start + width) packed fields n := by
  constructor
  · rintro (_ | ⟨hw, hs, hrest⟩)
    exact ⟨_, _, hw, hs, hrest⟩
  · rintro ⟨width, start, hw, hs, hrest⟩
    exact .cons hw hs hrest

theorem Ends.le (he : Ends widths offset packed fields n) : offset ≤ n := by
  induction he with
  | nil => exact Nat.le_refl _
  | cons _ hs _ ih =>
    have hle := hs.le
    omega

theorem Ends.imp (he : Ends widths offset packed fields n)
    (hwidths : ∀ f ∈ fields, ∀ n, widths f.type n → widths' f.type n) :
    Ends widths' offset packed fields n := by
  induction he with
  | nil => exact .nil _ _
  | cons hw hs _ ih =>
    exact .cons (hwidths _ List.mem_cons_self _ hw) hs
      (ih fun f hf => hwidths f (List.mem_cons_of_mem _ hf))

/-- Every field that is placed has a width. -/
theorem Ends.exists_width (he : Ends widths offset packed fields n) (hf : f ∈ fields) :
    ∃ width, widths f.type width := by
  induction he with
  | nil => cases hf
  | cons hw _ _ ih =>
    rcases List.mem_cons.mp hf with rfl | hf
    · exact ⟨_, hw⟩
    · exact ih hf

theorem Ends.unique (he : Ends widths offset packed fields n)
    (he' : Ends widths offset packed fields m)
    (hone : ∀ f ∈ fields, ∀ n m, widths f.type n → widths f.type m → n = m) : n = m := by
  induction he with
  | nil => exact (ends_nil_iff.mp he').symm
  | cons hw hs _ ih =>
    obtain ⟨width', start', hw', hs', hrest'⟩ := ends_cons_iff.mp he'
    obtain rfl := hone _ List.mem_cons_self _ _ hw hw'
    obtain rfl := hs.unique hs'
    exact ih hrest' fun f hf => hone f (List.mem_cons_of_mem _ hf)

theorem exists_ends (hsome : ∀ f ∈ fields, ∃ n, widths f.type n) (offset : Nat) :
    ∃ n, Ends widths offset packed fields n := by
  induction fields generalizing offset with
  | nil => exact ⟨offset, .nil offset packed⟩
  | cons f fs ih =>
    obtain ⟨width, hw⟩ := hsome f List.mem_cons_self
    obtain ⟨start, hs⟩ := exists_starts packed offset width
    obtain ⟨n, hn⟩ := ih (fun g hg => hsome g (List.mem_cons_of_mem _ hg)) (start + width)
    exact ⟨n, .cons hw hs hn⟩

/-! ### Fields of measured types

The exact widths `widths` are words and those that the measure `measure` knows, and `stops` tells the
types at which it overflows. -/

variable {stops : DataType → Prop} {measure : DataType → Width} {o : UInt64}

/-- Fields are laid out up to where they exactly end, if that is a word. -/
theorem layOut_eq_known_iff_ends (hword : ∀ t n, widths t n → n < Word.span)
    (hknown : ∀ t v, measure t = .known v ↔ widths t v.toNat) :
    layOut measure packed o fields = .known w ↔ Ends widths o.toNat packed fields w.toNat := by
  induction fields generalizing o with
  | nil => rw [layOut, Width.known.injEq, ends_nil_iff, ← UInt64.toNat_inj, eq_comm]
  | cons f fs ih =>
    simp only [layOut_cons_eq_known_iff, ends_cons_iff, place_eq_known_iff_starts, hknown, ih]
    constructor
    · rintro ⟨v, next, hv, ⟨start, hs, hend⟩, hrest⟩
      exact ⟨v.toNat, start, hv, hs, hend ▸ hrest⟩
    · rintro ⟨width, start, hw, hs, hrest⟩
      obtain ⟨v, rfl⟩ := Word.exists_toNat_eq (hword _ _ hw)
      -- the end of this field is not above the end of all of them
      obtain ⟨next, hnext⟩ := Word.exists_toNat_eq (Nat.lt_of_le_of_lt hrest.le w.toNat_lt)
      exact ⟨v, next, hw, ⟨start, hs, hnext.symm⟩, hnext ▸ hrest⟩

/-- Laying fields out overflows at the first of them that does. -/
theorem layOut_eq_overflow_iff_fieldOverflows (hword : ∀ t n, widths t n → n < Word.span)
    (hknown : ∀ t v, measure t = .known v ↔ widths t v.toNat)
    (hstops : ∀ t, measure t = .overflow ↔ stops t) :
    layOut measure packed o fields = .overflow ↔
      FieldOverflows widths stops o.toNat packed fields := by
  induction fields generalizing o with
  | nil =>
    constructor
    · rintro ⟨⟩
    · rintro ⟨⟩
  | cons f fs ih =>
    simp only [layOut_cons_eq_overflow_iff, place_eq_known_iff_starts, start?_eq_none_iff, hknown,
      hstops, ih]
    constructor
    · rintro (hstop | ⟨v, hv, ⟨start, hs, hpast⟩ | ⟨next, ⟨start, hs, hend⟩, hrest⟩⟩)
      · exact .type hstop
      · exact .start hv hs hpast
      · exact .later hv hs (hend ▸ next.toNat_lt) (hend ▸ hrest)
    · rintro (hstop | ⟨hw, hs, hpast⟩ | ⟨hw, hs, hlt, hrest⟩)
      · exact .inl hstop
      · obtain ⟨v, rfl⟩ := Word.exists_toNat_eq (hword _ _ hw)
        exact .inr ⟨v, hw, .inl ⟨_, hs, hpast⟩⟩
      · obtain ⟨v, rfl⟩ := Word.exists_toNat_eq (hword _ _ hw)
        obtain ⟨next, hnext⟩ := Word.exists_toNat_eq hlt
        exact .inr ⟨v, hw, .inr ⟨next, ⟨_, hs, hnext.symm⟩, hnext ▸ hrest⟩⟩

end Fields

/-! ## Types -/

theorem DepthBelow.pos (hd : DepthBelow table depth t) : 0 < depth := hd _ _ (.here t)

theorem DepthBelow.nests (hd : DepthBelow table (depth + 1) t) (hu : Nests table t u) :
    DepthBelow table depth u := by
  intro k v hv
  have := hd _ _ (.step hu hv)
  omega

theorem Defined.nests (hd : Defined table t) (hu : Nests table t u) : Defined table u :=
  fun _ name hv => hd _ name (.step hu hv)

theorem Fits.nests (hf : Fits table t) (hu : Nests table t u) : Fits table u :=
  fun _ v n hv => hf _ v n (.step hu hv)

/-- A type has at most one exact width. -/
theorem HasWidth.unique (hd : DepthBelow table depth t) (hn : HasWidth table t n)
    (hm : HasWidth table t m) : n = m := by
  induction depth generalizing t n m with
  | zero => exact absurd hd.pos (Nat.lt_irrefl 0)
  | succ depth ih =>
    cases hn with
    | pointer | integer | char | raw =>
      cases hm
      rfl
    | array count hn =>
      cases hm with
      | array _ hm => rw [ih (hd.nests (.element _ _)) hn hm]
    | named hc hn =>
      cases hm with
      | named hc' hm =>
        rw [hc, Option.some.injEq] at hc'
        subst hc'
        exact hn.unique hm fun f hf _ _ => ih (hd.nests (.field hc hf))

/-- A type from which all names are defined and chains end has an exact width. -/
theorem exists_hasWidth (hdef : Defined table t) (hd : DepthBelow table depth t) :
    ∃ n, HasWidth table t n := by
  induction depth generalizing t with
  | zero => exact absurd hd.pos (Nat.lt_irrefl 0)
  | succ depth ih =>
    cases t with
    | pointer w target => exact ⟨_, .pointer w target⟩
    | integer w signed => exact ⟨_, .integer w signed⟩
    | char => exact ⟨_, .char⟩
    | raw w => exact ⟨_, .raw w⟩
    | array e count =>
      have hu : Nests table (.array e count) e := .element e count
      obtain ⟨n, hn⟩ := ih (hdef.nests hu) (hd.nests hu)
      exact ⟨_, .array count hn⟩
    | named name =>
      obtain ⟨c, hc⟩ := Option.isSome_iff_exists.mp (hdef 0 name (.here _))
      have hfields : ∀ f ∈ c.fields, ∃ n, HasWidth table f.type n := by
        intro f hf
        exact ih (hdef.nests (.field hc hf)) (hd.nests (.field hc hf))
      obtain ⟨n, hn⟩ := exists_ends hfields 0
      exact ⟨n, .named hc hn⟩

/-! ## Widths -/

theorem IsWidth.lt (hw : IsWidth table depth t n) : n < Word.span := hw.fits 0 t n (.here t) hw.width

theorem not_isWidth_zero : ¬ IsWidth table 0 t n := fun hw => Nat.lt_irrefl 0 hw.shallow.pos

/-- What a type with a width is made of has a width one nesting step less deep. -/
theorem IsWidth.nests (hw : IsWidth table (depth + 1) t n) (hu : Nests table t u)
    (hm : HasWidth table u m) : IsWidth table depth u m :=
  ⟨hw.defined.nests hu, hw.shallow.nests hu, hw.fits.nests hu, hm⟩

/-- A type has a width if it is defined itself and what it is made of has a width one nesting step
less deep. -/
theorem IsWidth.of_nests (hname : ∀ name, t = .named name → (table.get? name).isSome)
    (hparts : ∀ u, Nests table t u → ∃ m, IsWidth table depth u m) (hn : HasWidth table t n)
    (hlt : n < Word.span) : IsWidth table (depth + 1) t n := by
  have hshallow : DepthBelow table (depth + 1) t := by
    rintro k v (_ | ⟨hu, hv⟩)
    · exact Nat.succ_pos depth
    · obtain ⟨m, hm⟩ := hparts _ hu
      exact Nat.succ_lt_succ (hm.shallow _ _ hv)
  refine ⟨?_, hshallow, ?_, hn⟩
  · rintro k name (_ | ⟨hu, hv⟩)
    · exact hname name rfl
    · obtain ⟨m, hm⟩ := hparts _ hu
      exact hm.defined _ _ hv
  · rintro k v m (_ | ⟨hu, hv⟩) hwidth
    · rwa [hwidth.unique hshallow hn]
    · obtain ⟨m, hm⟩ := hparts _ hu
      exact hm.fits _ _ _ hv hwidth

theorem isWidth_array_iff {e : DataType} {count : UInt64} :
    IsWidth table (depth + 1) (.array e count) n ↔
      ∃ m, IsWidth table depth e m ∧ min (m * count.toNat) Word.top.toNat = n := by
  constructor
  · intro hw
    cases hw.width with
    | array _ hm => exact ⟨_, hw.nests (.element e count) hm, rfl⟩
  · rintro ⟨m, hm, rfl⟩
    refine .of_nests (by simp) ?_ (.array count hm.width) ?_
    · rintro u ⟨⟩
      exact ⟨m, hm⟩
    · exact Nat.lt_of_le_of_lt (Nat.min_le_right _ _) (by decide)

theorem isWidth_named_iff {name : String} :
    IsWidth table (depth + 1) (.named name) n ↔
      ∃ c, table.get? name = some c ∧ Ends (IsWidth table depth) 0 c.packed c.fields n ∧
        n < Word.span := by
  constructor
  · intro hw
    cases hw.width with
    | named hc hn => exact ⟨_, hc, hn.imp fun f hf m => hw.nests (.field hc hf), hw.lt⟩
  · rintro ⟨c, hc, hn, hlt⟩
    refine .of_nests ?_ ?_ (.named hc (hn.imp fun _ _ _ => IsWidth.width)) hlt
    · rintro other ⟨⟩
      rw [hc]
      rfl
    · rintro u (_ | ⟨hc', hf⟩)
      rw [hc, Option.some.injEq] at hc'
      subst hc'
      exact hn.exists_width hf

/-- What is computed for a type that is made of no other is its exact width. -/
theorem widthWithin_eq_known_iff_of_leaf {v : UInt64}
    (hv : widthWithin table (depth + 1) t = .known v) (hwidth : HasWidth table t v.toNat)
    (hname : ∀ name, t ≠ .named name) (hleaf : ∀ u, ¬ Nests table t u) :
    widthWithin table (depth + 1) t = .known w ↔ IsWidth table (depth + 1) t w.toNat := by
  rw [hv, Width.known.injEq]
  constructor
  · rintro rfl
    exact .of_nests (fun name h => absurd h (hname name)) (fun u hu => absurd hu (hleaf u)) hwidth
      v.toNat_lt
  · intro hw
    exact UInt64.toNat_inj.mp (hwidth.unique hw.shallow hw.width)

/-- A width is known just when it is the exact one. -/
theorem widthWithin_eq_known_iff :
    widthWithin table depth t = .known w ↔ IsWidth table depth t w.toNat := by
  induction depth generalizing t w with
  | zero =>
    constructor
    · rintro ⟨⟩
    · exact fun hw => absurd hw not_isWidth_zero
  | succ depth ih =>
    cases t with
    | pointer v target =>
      exact widthWithin_eq_known_iff_of_leaf rfl (.pointer v target) (by simp) (by rintro _ ⟨⟩)
    | integer v signed =>
      exact widthWithin_eq_known_iff_of_leaf rfl (.integer v signed) (by simp) (by rintro _ ⟨⟩)
    | char => exact widthWithin_eq_known_iff_of_leaf rfl .char (by simp) (by rintro _ ⟨⟩)
    | raw v => exact widthWithin_eq_known_iff_of_leaf rfl (.raw v) (by simp) (by rintro _ ⟨⟩)
    | array e count =>
      rw [widthWithin_array_eq_known_iff, isWidth_array_iff]
      constructor
      · rintro ⟨v, hv, rfl⟩
        exact ⟨v.toNat, ih.mp hv, (Word.toNat_mulCapped v count).symm⟩
      · rintro ⟨m, hm, hcap⟩
        obtain ⟨v, rfl⟩ := Word.exists_toNat_eq hm.lt
        exact ⟨v, ih.mpr hm, UInt64.toNat_inj.mp ((Word.toNat_mulCapped v count).trans hcap)⟩
    | named name =>
      simp only [widthWithin_named_eq_known_iff, isWidth_named_iff,
        layOut_eq_known_iff_ends (fun _ _ => IsWidth.lt) fun _ _ => ih]
      constructor
      · rintro ⟨c, hc, hn⟩
        exact ⟨c, hc, hn, w.toNat_lt⟩
      · rintro ⟨c, hc, hn, -⟩
        exact ⟨c, hc, hn⟩

/-- Measuring a type overflows just when a field of it or below it does. -/
theorem widthWithin_eq_overflow_iff :
    widthWithin table depth t = .overflow ↔ Overflows table depth t := by
  induction depth generalizing t with
  | zero => simp [widthWithin, Overflows]
  | succ depth ih =>
    cases t with
    | pointer _ _ => simp [widthWithin, Overflows, Width.ofOption_ne_overflow]
    | integer _ _ => simp [widthWithin, Overflows, Width.ofOption_ne_overflow]
    | char => simp [widthWithin, Overflows, Width.ofOption_ne_overflow]
    | raw _ => simp [widthWithin, Overflows, Width.ofOption_ne_overflow]
    | array e count => exact widthWithin_array_eq_overflow_iff.trans ih
    | named name =>
      rw [widthWithin_named_eq_overflow_iff, Overflows]
      simp only [layOut_eq_overflow_iff_fieldOverflows (fun _ _ => IsWidth.lt)
        (fun _ _ => widthWithin_eq_known_iff) fun _ => ih]
      rfl

/-- Some width is known just when names are defined, nesting ends and everything fits. -/
theorem exists_width_eq_known_iff :
    (∃ w, width table t = .known w) ↔
      Defined table t ∧ DepthBelow table (nestingLimit + 1) t ∧ Fits table t := by
  constructor
  · rintro ⟨w, hw⟩
    obtain ⟨hdef, hshallow, hfits, -⟩ := widthWithin_eq_known_iff.mp hw
    exact ⟨hdef, hshallow, hfits⟩
  · rintro ⟨hdef, hshallow, hfits⟩
    obtain ⟨n, hn⟩ := exists_hasWidth hdef hshallow
    obtain ⟨w, rfl⟩ := Word.exists_toNat_eq (hfits 0 t n (.here t) hn)
    exact ⟨w, widthWithin_eq_known_iff.mpr ⟨hdef, hshallow, hfits, hn⟩⟩

/-- **Widths are exact where they are known, and nothing wraps around.** For every table of named
types and every type: a width is known just when all names that are reached are defined, no more than
sixteen nesting steps lead down from the type, and everything fits; it is the exact one then. Measuring
overflows just when, in the order of fields, one that is placed past the largest word comes before
anything that has no width; else the width is unknown. Exact widths are unique, and no width is known
of what reaches a type that contains itself. -/
theorem widths_exact (table : TypeTable) (t : DataType) :
    ((∃ w, width table t = .known w) ↔
      Defined table t ∧ DepthBelow table (nestingLimit + 1) t ∧ Fits table t) ∧
      (∀ w, width table t = .known w ↔ IsWidth table (nestingLimit + 1) t w.toNat) ∧
      (width table t = .overflow ↔ Overflows table (nestingLimit + 1) t) ∧
      (Defined table t → DepthBelow table (nestingLimit + 1) t → ∃! n, HasWidth table t n) ∧
      (∀ k j u, Reaches table k t u → Reaches table (j + 1) u u → ∀ w, width table t ≠ .known w) := by
  refine ⟨exists_width_eq_known_iff, fun w => widthWithin_eq_known_iff, widthWithin_eq_overflow_iff,
    ?_, ?_⟩
  · intro hdef hshallow
    obtain ⟨n, hn⟩ := exists_hasWidth hdef hshallow
    exact ⟨n, hn, fun m hm => hm.unique hshallow hn⟩
  · intro k j u hr hu w hw
    exact not_depthBelow_of_recursive hr hu (widthWithin_eq_known_iff.mp hw).shallow

/-- A structure of two fields, the first of which takes up all of the address space but its last
byte. -/
def wide : TypeTable :=
  .ofList [("Wide", ⟨false, [⟨"rest", .raw Word.top⟩, ⟨"word", .raw 8⟩]⟩)]

/-- The second field would be placed on the next boundary, which is past the largest word. So the
type does not fit, but what measuring it comes to is not that its width is unknown. -/
theorem width_wide :
    width wide (.named "Wide") = .overflow ∧
      ∀ n, HasWidth wide (.named "Wide") n → Word.span ≤ n := by
  refine ⟨by decide, ?_⟩
  intro n hwidth
  cases hwidth with
  | named hc hn =>
    cases (show wide.get? "Wide" = _ from rfl).symm.trans hc
    obtain ⟨_, _, ⟨⟩, hrest, hn⟩ := ends_cons_iff.mp hn
    obtain ⟨_, _, ⟨⟩, hword, hn⟩ := ends_cons_iff.mp hn
    have hend : _ + 8 ≤ n := hn.le
    have hstart : _ + 18446744073709551615 ≤ _ := hword.le
    unfold Word.span
    omega

end TypeTable
end SliceRecovery
