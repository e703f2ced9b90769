import Mathlib.Data.List.Sort
import SliceRecovery.History.Store

/-!
# SliceRecovery.Proofs.Listing -- the order in which details are listed

The rows of a run are put one after the other into a map by signed address. What that comes to is
said here without the map: of the rows with one address the last that was put stands, and the rows
are listed by ascending signed address (`lists_putRows`). A list with these two properties is the
only one, so that is all there is to know about a listing.

A signed address is negative just when the address lies in the upper half of the address space.
Addresses that ascend as they are stay in that order within each half, but the halves change places:
`upperFirst`.
-/

namespace SliceRecovery

/-! ## Signed words -/

namespace Word

variable {a b : UInt64}

/-- A word in the upper half of all words, which is negative when it is read with a sign. -/
def IsUpper (w : UInt64) : Prop := half ≤ w.toNat

instance : DecidablePred IsUpper := fun w => inferInstanceAs (Decidable (half ≤ w.toNat))

theorem signed_of_isUpper (h : IsUpper a) : signed a = (a.toNat : Int) - span :=
  if_neg (Nat.not_lt.mpr h)

theorem signed_of_not_isUpper (h : ¬ IsUpper a) : signed a = a.toNat := if_pos (Nat.not_le.mp h)

/-- A word above one in the upper half is in the upper half. -/
theorem IsUpper.mono (h : IsUpper a) (hlt : a < b) : IsUpper b :=
  Nat.le_trans h (Nat.le_of_lt (UInt64.lt_iff_toNat_lt.mp hlt))

/-- Within a half the order of words is that of the signed numbers. -/
theorem signed_lt_signed (hlt : a < b) (h : IsUpper a ↔ IsUpper b) : signed a < signed b := by
  have hlt := UInt64.lt_iff_toNat_lt.mp hlt
  by_cases ha : IsUpper a
  · rw [signed_of_isUpper ha, signed_of_isUpper (h.mp ha)]
    omega
  · rw [signed_of_not_isUpper ha, signed_of_not_isUpper fun hb => ha (h.mpr hb)]
    omega

/-- The upper half lies below the lower half when words are read with a sign. -/
theorem signed_lt_signed_of_isUpper (ha : IsUpper a) (hb : ¬ IsUpper b) :
    signed a < signed b := by
  have hlt := a.toNat_lt
  rw [signed_of_isUpper ha, signed_of_not_isUpper hb]
  unfold span
  omega

/-- The bits of a word are those of its signed number. -/
theorem ofSigned_signed (w : UInt64) : ofSigned (signed w) = w := by
  have hlt := w.toNat_lt
  have hmod : signed w % (span : Int) = w.toNat := by
    by_cases hw : IsUpper w
    · rw [signed_of_isUpper hw]
      unfold span
      omega
    · rw [signed_of_not_isUpper hw]
      unfold span
      omega
  unfold ofSigned
  rw [hmod, Int.toNat_natCast]
  exact UInt64.ofNat_toNat

theorem signed_injective (h : signed a = signed b) : a = b := by
  rw [← ofSigned_signed a, h, ofSigned_signed]

/-- A column reads a word as its signed number. -/
theorem toInt_toInt64 (w : UInt64) : w.toInt64.toInt = signed w := by
  have hword : w.toInt64.toInt = w.toBitVec.toInt := rfl
  rw [hword, BitVec.toInt_eq_toNat_cond]
  unfold signed half span
  show (if 2 * w.toNat < 2 ^ 64 then (w.toNat : Int) else w.toNat - (2 ^ 64 : Nat)) = _
  split <;> split <;> omega

end Word

/-! ## Rows that are put one after the other -/

variable {ρ σ : Type}

/-- Of the rows with its key a row was written last. -/
def IsLast (key : ρ → Int) (written : List ρ) (row : ρ) : Prop :=
  ∃ earlier later, written = earlier ++ row :: later ∧ ∀ other ∈ later, key other ≠ key row

/-- The listing of what was written: of the rows with one key the last, by ascending key. -/
structure Lists (key : ρ → Int) (written rows : List ρ) : Prop where
  ascending : rows.Pairwise fun a b => key a < key b
  mem_iff : ∀ row, row ∈ rows ↔ IsLast key written row

variable {key : ρ → Int} {row : ρ} {written rows : List ρ}

theorem not_isLast_nil : ¬ IsLast key [] row := by
  rintro ⟨earlier, later, hw, -⟩
  cases earlier <;> cases hw

theorem isLast_cons {first : ρ} :
    IsLast key (first :: written) row ↔
      IsLast key written row ∨ first = row ∧ ∀ other ∈ written, key other ≠ key row := by
  constructor
  · rintro ⟨earlier, later, hw, hlater⟩
    cases earlier with
    | nil =>
      cases hw
      exact Or.inr ⟨rfl, hlater⟩
    | cons _ earlier =>
      cases hw
      exact Or.inl ⟨earlier, later, rfl, hlater⟩
  · rintro (⟨earlier, later, rfl, hlater⟩ | ⟨rfl, hall⟩)
    · exact ⟨first :: earlier, later, rfl, hlater⟩
    · exact ⟨[], written, rfl, hall⟩

theorem IsLast.mem (h : IsLast key written row) : row ∈ written := by
  obtain ⟨earlier, later, rfl, -⟩ := h
  exact List.mem_append_right _ List.mem_cons_self

/-- Where no key comes twice every row is the last with its key. -/
theorem isLast_iff_mem (h : written.Pairwise fun a b => key a ≠ key b) :
    IsLast key written row ↔ row ∈ written := by
  refine ⟨IsLast.mem, fun hm => ?_⟩
  obtain ⟨earlier, later, rfl⟩ := List.append_of_mem hm
  obtain ⟨-, hlater, -⟩ := List.pairwise_append.mp h
  exact ⟨earlier, later, rfl, fun other ho he => (List.pairwise_cons.mp hlater).1 other ho he.symm⟩

/-- There is only one listing. -/
theorem Lists.unique {rows' : List ρ} (h : Lists key written rows) (h' : Lists key written rows') :
    rows = rows' := by
  have : Std.Irrefl fun a b : ρ => key a < key b := ⟨fun a => Int.lt_irrefl _⟩
  have : Std.Antisymm fun a b : ρ => key a < key b :=
    ⟨fun a b hab hba => absurd hba (Int.lt_asymm hab)⟩
  exact h.ascending.eq_of_mem_iff h'.ascending fun row => (h.mem_iff row).trans (h'.mem_iff row).symm

/-- A listing of rows under another form with the same keys. -/
theorem Lists.map {key' : σ → Int} {f : ρ → σ} (hf : ∀ row, key' (f row) = key row)
    (h : Lists key written rows) : Lists key' (written.map f) (rows.map f) where
  ascending := by
    rw [List.pairwise_map]
    refine h.ascending.imp fun hab => ?_
    rwa [hf, hf]
  mem_iff := by
    intro x
    rw [List.mem_map]
    constructor
    · rintro ⟨row, hm, rfl⟩
      obtain ⟨earlier, later, rfl, hlater⟩ := (h.mem_iff row).mp hm
      refine ⟨earlier.map f, later.map f, by simp, fun other ho => ?_⟩
      obtain ⟨last, hlast, rfl⟩ := List.mem_map.mp ho
      rw [hf, hf]
      exact hlater last hlast
    · rintro ⟨earlier, later, hsplit, hlater⟩
      obtain ⟨first, rest, rfl, rfl, hrest⟩ := List.map_eq_append_iff.mp hsplit
      obtain ⟨row, after, rfl, rfl, rfl⟩ := List.map_eq_cons_iff.mp hrest
      refine ⟨row, (h.mem_iff row).mpr ⟨first, after, rfl, fun other ho he => ?_⟩, rfl⟩
      refine hlater (f other) (List.mem_map_of_mem ho) ?_
      rw [hf, hf, he]

/-! ## The listing of a run -/

namespace DetailTable

variable {address : ρ → Int64} {t : DetailTable ρ} {id other : Int}

/-- Put rows one after the other, each at its signed address. -/
def putRows (address : ρ → Int64) (m : OrderedMap Int ρ) (rows : List ρ) : OrderedMap Int ρ :=
  rows.foldl (fun m row => m.insert ((address row).toInt) row) m

/-- What stands at a key: the last of the rows with that key, or what stood there if there are
none. -/
theorem get?_putRows (m : OrderedMap Int ρ) (k : Int) :
    (putRows address m written).get? k = some row ↔
      (IsLast (fun r => (address r).toInt) written row ∧ (address row).toInt = k) ∨
        m.get? k = some row ∧ ∀ other ∈ written, (address other).toInt ≠ k := by
  induction written generalizing m with
  | nil =>
    show m.get? k = some row ↔ _
    simp [not_isLast_nil]
  | cons first written ih =>
    show (putRows address (m.insert ((address first).toInt) first) written).get? k =
      some row ↔ _
    rw [ih, OrderedMap.get?_insert, isLast_cons]
    by_cases hk : k = (address first).toInt
    · subst hk
      rw [if_pos rfl, Option.some.injEq]
      constructor
      · rintro (⟨hlast, hkey⟩ | ⟨rfl, hno⟩)
        · exact Or.inl ⟨Or.inl hlast, hkey⟩
        · exact Or.inl ⟨Or.inr ⟨rfl, hno⟩, rfl⟩
      · rintro (⟨hlast | ⟨rfl, hno⟩, hkey⟩ | ⟨-, hno⟩)
        · exact Or.inl ⟨hlast, hkey⟩
        · exact Or.inr ⟨rfl, hno⟩
        · exact absurd rfl (hno first List.mem_cons_self)
    · rw [if_neg hk]
      constructor
      · rintro (⟨hlast, hkey⟩ | ⟨hm, hno⟩)
        · exact Or.inl ⟨Or.inl hlast, hkey⟩
        · exact Or.inr ⟨hm, List.forall_mem_cons.mpr ⟨fun he => hk he.symm, hno⟩⟩
      · rintro (⟨hlast | ⟨rfl, -⟩, hkey⟩ | ⟨hm, hno⟩)
        · exact Or.inl ⟨hlast, hkey⟩
        · exact absurd hkey.symm hk
        · exact Or.inr ⟨hm, (List.forall_mem_cons.mp hno).2⟩

/-- **How details are listed.** Rows that are put one after the other into an empty map are listed
by ascending signed address, and of the rows with one address the last is listed. -/
theorem lists_putRows (address : ρ → Int64) (written : List ρ) :
    Lists (fun r => (address r).toInt) written
      (putRows address OrderedMap.empty written).values := by
  have hget : ∀ {k row}, (putRows address OrderedMap.empty written).get? k = some row →
      IsLast (fun r => (address r).toInt) written row ∧ (address row).toInt = k := by
    intro k row h
    rcases (get?_putRows _ k).mp h with hlast | ⟨hempty, -⟩
    · exact hlast
    · cases hempty
  constructor
  · unfold OrderedMap.values
    rw [List.pairwise_map]
    refine (OrderedMap.ascending _).imp_of_mem fun ha hb hab => ?_
    rw [(hget (OrderedMap.get?_of_mem_entries ha)).2, (hget (OrderedMap.get?_of_mem_entries hb)).2]
    exact hab
  · intro row
    rw [OrderedMap.mem_values_iff]
    constructor
    · rintro ⟨k, h⟩
      exact (hget h).1
    · intro h
      exact ⟨_, (get?_putRows _ _).mpr (Or.inl ⟨h, rfl⟩)⟩

theorem ofRun_put (t : DetailTable ρ) (id other : Int) (row : ρ) :
    ofRun (put address id t row) other =
      if other = id then (ofRun t id).insert ((address row).toInt) row else ofRun t other := by
  unfold put
  unfold ofRun
  rw [OrderedMap.get?_insert]
  split <;> rfl

/-- Rows that are put for a run go to that run only. -/
theorem ofRun_foldl_put (t : DetailTable ρ) (id other : Int) (rows : List ρ) :
    ofRun (rows.foldl (put address id) t) other =
      if other = id then putRows address (ofRun t id) rows else ofRun t other := by
  induction rows generalizing t with
  | nil =>
    split
    · subst other
      rfl
    · rfl
  | cons row rows ih =>
    rw [List.foldl_cons, ih, ofRun_put, ofRun_put, if_pos rfl]
    split <;> rfl

end DetailTable

/-! ## The halves of the address space -/

/-- A list with what has an address in the upper half in front. -/
def upperFirst (address : ρ → Address) (xs : List ρ) : List ρ :=
  xs.filter (fun x => Word.IsUpper (address x)) ++ xs.filter (fun x => ¬ Word.IsUpper (address x))

/-- What a list holds lies in one half of the address space. -/
def OneHalf (address : ρ → Address) (xs : List ρ) : Prop :=
  ∀ a ∈ xs, ∀ b ∈ xs, Word.IsUpper (address a) → Word.IsUpper (address b)

instance (address : ρ → Address) : DecidablePred (OneHalf address) := fun xs =>
  inferInstanceAs (Decidable (∀ a ∈ xs, ∀ b ∈ xs,
    Word.IsUpper (address a) → Word.IsUpper (address b)))

variable {address : ρ → Address} {xs : List ρ}

theorem length_upperFirst : (upperFirst address xs).length = xs.length := by
  unfold upperFirst
  simp only [decide_not]
  exact (List.filter_append_perm _ xs).length_eq

theorem upperFirst_map (address : ρ → Address) (f : σ → ρ) (ys : List σ) :
    upperFirst address (ys.map f) = (upperFirst (fun y => address (f y)) ys).map f := by
  unfold upperFirst
  rw [List.map_append, List.filter_map, List.filter_map]
  rfl

theorem oneHalf_map_iff (f : σ → ρ) (ys : List σ) :
    OneHalf address (ys.map f) ↔ OneHalf (fun y => address (f y)) ys := by
  unfold OneHalf
  simp only [List.forall_mem_map]

/-- What ascends by its addresses is listed with the upper half in front. -/
theorem lists_upperFirst (h : xs.Pairwise fun a b => address a < address b) :
    Lists (fun x => Word.signed (address x)) xs (upperFirst address xs) where
  ascending := by
    refine List.pairwise_append.mpr ⟨?_, ?_, fun a ha b hb => ?_⟩
    · refine (h.filter _).imp_of_mem fun ha hb hab => Word.signed_lt_signed hab ?_
      have ha := of_decide_eq_true (List.mem_filter.mp ha).2
      have hb := of_decide_eq_true (List.mem_filter.mp hb).2
      exact iff_of_true ha hb
    · refine (h.filter _).imp_of_mem fun ha hb hab => Word.signed_lt_signed hab ?_
      have ha := of_decide_eq_true (List.mem_filter.mp ha).2
      have hb := of_decide_eq_true (List.mem_filter.mp hb).2
      exact iff_of_false ha hb
    · exact Word.signed_lt_signed_of_isUpper (of_decide_eq_true (List.mem_filter.mp ha).2)
        (of_decide_eq_true (List.mem_filter.mp hb).2)
  mem_iff := by
    intro x
    have hdistinct : xs.Pairwise fun a b =>
        Word.signed (address a) ≠ Word.signed (address b) :=
      h.imp fun hab he => UInt64.ne_of_lt hab (Word.signed_injective he)
    rw [isLast_iff_mem hdistinct]
    unfold upperFirst
    rw [List.mem_append, List.mem_filter, List.mem_filter, ← and_or_left, decide_eq_true_iff,
      decide_eq_true_iff]
    exact and_iff_left (Classical.em _)

/-- What ascends by its addresses is listed in that order just when it lies in one half. -/
theorem upperFirst_eq_self_iff (h : xs.Pairwise fun a b => address a < address b) :
    upperFirst address xs = xs ↔ OneHalf address xs := by
  constructor
  · intro heq a ha b hb hupper
    refine Classical.byContradiction fun hlower => ?_
    -- the list has `a` in front of `b`, although `b` has the smaller address
    rw [← heq] at h
    obtain ⟨-, -, hlt⟩ := List.pairwise_append.mp h
    have hab := hlt a (List.mem_filter.mpr ⟨ha, decide_eq_true hupper⟩)
      b (List.mem_filter.mpr ⟨hb, decide_eq_true hlower⟩)
    exact hlower (Word.IsUpper.mono hupper hab)
  · intro hhalf
    unfold upperFirst
    by_cases hsome : ∃ a ∈ xs, Word.IsUpper (address a)
    · obtain ⟨a, ha, hupper⟩ := hsome
      have hall : ∀ b ∈ xs, Word.IsUpper (address b) := fun b hb => hhalf a ha b hb hupper
      rw [List.filter_eq_self.mpr fun b hb => decide_eq_true (hall b hb),
        List.filter_eq_nil_iff.mpr fun b hb => by simpa using hall b hb, List.append_nil]
    · have hnone : ∀ b ∈ xs, ¬ Word.IsUpper (address b) := fun b hb hupper => hsome ⟨b, hb, hupper⟩
      rw [List.filter_eq_nil_iff.mpr fun b hb => by simpa using hnone b hb,
        List.filter_eq_self.mpr fun b hb => decide_eq_true (hnone b hb), List.nil_append]

end SliceRecovery
