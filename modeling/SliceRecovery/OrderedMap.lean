/-!
# SliceRecovery.OrderedMap -- finite maps listed by ascending key

The type table and the variable table of an analysis are finite maps whose listing order shows in
every answer. A map is kept as the list of its entries with strictly ascending keys, and the type
carries that invariant, so two maps with the same lookups are equal (`OrderedMap.ext_get?`).
-/

namespace SliceRecovery

/-- A key type with a strict linear order. -/
class Key (κ : Type) [LT κ] : Prop where
  irrefl : ∀ a : κ, ¬ a < a
  trans : ∀ {a b c : κ}, a < b → b < c → a < c
  trichotomy : ∀ a b : κ, a < b ∨ a = b ∨ b < a

instance : Key UInt64 where
  irrefl := UInt64.lt_irrefl
  trans := UInt64.lt_trans
  trichotomy := Std.lt_trichotomy

instance : Key Int where
  irrefl := Int.lt_irrefl
  trans := Int.lt_trans
  trichotomy := Int.lt_trichotomy

instance : Key String where
  irrefl _ := Std.lt_irrefl
  trans := Std.lt_trans
  trichotomy := Std.lt_trichotomy

namespace Key

variable {κ : Type} [LT κ] [Key κ] {a b : κ}

theorem not_lt_of_lt (h : b < a) : ¬ a < b := fun h' => irrefl _ (trans h h')

/-- Keys of which neither is below the other are the same. -/
theorem eq_of_not_lt (hab : ¬ a < b) (hba : ¬ b < a) : a = b := by
  rcases trichotomy a b with h | h | h
  · exact absurd h hab
  · exact h
  · exact absurd h hba

theorem ne_of_lt (h : a < b) : a ≠ b := by
  rintro rfl
  exact irrefl _ h

end Key

namespace Entries

variable {κ υ : Type} [LT κ] [DecidableLT κ]

/-- Entries in ascending order of their keys, no key twice. -/
def Ascending (es : List (κ × υ)) : Prop := es.Pairwise fun a b => a.1 < b.1

/-- Put `v` at `k`, replacing what is there. -/
def insert (k : κ) (v : υ) : List (κ × υ) → List (κ × υ)
  | [] => [(k, v)]
  | e :: es =>
    if k < e.1 then (k, v) :: e :: es
    else if e.1 < k then e :: insert k v es
    else (k, v) :: es

/-- What stands at `k`. -/
def get? (k : κ) : List (κ × υ) → Option υ
  | [] => none
  | e :: es => if k < e.1 then none else if e.1 < k then get? k es else some e.2

/-- Remove what stands at `k`. -/
def erase (k : κ) : List (κ × υ) → List (κ × υ)
  | [] => []
  | e :: es => if k < e.1 then e :: es else if e.1 < k then e :: erase k es else es

theorem fst_mem_insert {k : κ} {v : υ} {es : List (κ × υ)} {e : κ × υ}
    (h : e ∈ insert k v es) : e = (k, v) ∨ e ∈ es := by
  induction es with
  | nil => simpa [insert] using h
  | cons a es ih =>
    unfold insert at h
    split at h
    · simpa using h
    · split at h
      · rcases List.mem_cons.mp h with rfl | h
        · simp
        · rcases ih h with h | h <;> simp [h]
      · rcases List.mem_cons.mp h with h | h <;> simp [h]

theorem mem_of_mem_erase {k : κ} {es : List (κ × υ)} {e : κ × υ}
    (h : e ∈ erase k es) : e ∈ es := by
  induction es with
  | nil => simp [erase] at h
  | cons a es ih =>
    unfold erase at h
    split at h
    · exact h
    · split at h
      · rcases List.mem_cons.mp h with rfl | h
        · simp
        · simp [ih h]
      · simp [h]

/-! ### One entry

How an operation goes on at an entry, by the three ways in which the key may compare with that of
the entry. -/

variable {k : κ} {v : υ} {e : κ × υ} {es fs : List (κ × υ)}

theorem get?_cons_of_lt (h : k < e.1) : get? k (e :: es) = none := if_pos h

theorem insert_cons_of_lt (h : k < e.1) : insert k v (e :: es) = (k, v) :: e :: es := if_pos h

theorem erase_cons_of_lt (h : k < e.1) : erase k (e :: es) = e :: es := if_pos h

/-- Below every key of a list nothing is found. -/
theorem get?_eq_none_of_forall_lt (h : ∀ e ∈ es, k < e.1) : get? k es = none := by
  cases es with
  | nil => rfl
  | cons e es => exact get?_cons_of_lt (h e List.mem_cons_self)

variable [Key κ]

theorem get?_cons_of_gt (h : e.1 < k) : get? k (e :: es) = get? k es :=
  (if_neg (Key.not_lt_of_lt h)).trans (if_pos h)

theorem insert_cons_of_gt (h : e.1 < k) : insert k v (e :: es) = e :: insert k v es :=
  (if_neg (Key.not_lt_of_lt h)).trans (if_pos h)

theorem erase_cons_of_gt (h : e.1 < k) : erase k (e :: es) = e :: erase k es :=
  (if_neg (Key.not_lt_of_lt h)).trans (if_pos h)

theorem get?_cons_self : get? e.1 (e :: es) = some e.2 :=
  (if_neg (Key.irrefl _)).trans (if_neg (Key.irrefl _))

theorem insert_cons_self : insert e.1 v (e :: es) = (e.1, v) :: es :=
  (if_neg (Key.irrefl _)).trans (if_neg (Key.irrefl _))

theorem erase_cons_self : erase e.1 (e :: es) = es :=
  (if_neg (Key.irrefl _)).trans (if_neg (Key.irrefl _))

/-! ### Ascending lists -/

theorem ascending_insert (h : Ascending es) : Ascending (insert k v es) := by
  induction es with
  | nil => simp [insert, Ascending]
  | cons a es ih =>
    have ha := List.pairwise_cons.mp h
    rcases Key.trichotomy k a.1 with hk | rfl | hk
    · rw [insert_cons_of_lt hk]
      refine List.pairwise_cons.mpr ⟨fun b hb => ?_, h⟩
      rcases List.mem_cons.mp hb with rfl | hb
      · exact hk
      · exact Key.trans hk (ha.1 b hb)
    · rw [insert_cons_self]
      exact List.pairwise_cons.mpr ha
    · rw [insert_cons_of_gt hk]
      refine List.pairwise_cons.mpr ⟨fun b hb => ?_, ih ha.2⟩
      rcases fst_mem_insert hb with rfl | hb
      · exact hk
      · exact ha.1 b hb

theorem ascending_erase (h : Ascending es) : Ascending (erase k es) := by
  induction es with
  | nil => simp [erase, Ascending]
  | cons a es ih =>
    have ha := List.pairwise_cons.mp h
    rcases Key.trichotomy k a.1 with hk | rfl | hk
    · rwa [erase_cons_of_lt hk]
    · rw [erase_cons_self]
      exact ha.2
    · rw [erase_cons_of_gt hk]
      exact List.pairwise_cons.mpr ⟨fun b hb => ha.1 b (mem_of_mem_erase hb), ih ha.2⟩

/-- In an ascending list a key is that of the first entry or is looked up behind it. -/
theorem get?_cons [DecidableEq κ] (h : Ascending (e :: es)) :
    get? k (e :: es) = if k = e.1 then some e.2 else get? k es := by
  rcases Key.trichotomy k e.1 with hk | rfl | hk
  · rw [get?_cons_of_lt hk, if_neg (Key.ne_of_lt hk), get?_eq_none_of_forall_lt]
    exact fun b hb => Key.trans hk ((List.pairwise_cons.mp h).1 b hb)
  · rw [get?_cons_self, if_pos rfl]
  · rw [get?_cons_of_gt hk, if_neg (Key.ne_of_lt hk).symm]

theorem get?_insert [DecidableEq κ] {j : κ} (h : Ascending es) :
    get? j (insert k v es) = if j = k then some v else get? j es := by
  induction es with
  | nil => exact get?_cons (List.pairwise_singleton _ _)
  | cons a es ih =>
    have hinsert : Ascending (insert k v (a :: es)) := ascending_insert h
    have ih := ih (List.pairwise_cons.mp h).2
    rcases Key.trichotomy k a.1 with hk | rfl | hk
    · rw [insert_cons_of_lt hk] at hinsert ⊢
      rw [get?_cons hinsert]
    · rw [insert_cons_self] at hinsert ⊢
      rw [get?_cons hinsert, get?_cons h]
      split
      · rfl
      · rfl
    · rw [insert_cons_of_gt hk] at hinsert ⊢
      rw [get?_cons hinsert, get?_cons h, ih]
      by_cases hj : j = a.1
      · subst hj
        rw [if_pos rfl, if_pos rfl, if_neg (Key.ne_of_lt hk)]
      · rw [if_neg hj, if_neg hj]

theorem get?_erase [DecidableEq κ] {j : κ} (h : Ascending es) :
    get? j (erase k es) = if j = k then none else get? j es := by
  induction es with
  | nil => simp [erase, get?]
  | cons a es ih =>
    have ha := List.pairwise_cons.mp h
    have herase : Ascending (erase k (a :: es)) := ascending_erase h
    have ih := ih ha.2
    rcases Key.trichotomy k a.1 with hk | rfl | hk
    · rw [erase_cons_of_lt hk]
      split
      · subst j
        exact get?_cons_of_lt hk
      · rfl
    · rw [erase_cons_self, get?_cons h]
      split
      · subst j
        exact get?_eq_none_of_forall_lt ha.1
      · rfl
    · rw [erase_cons_of_gt hk] at herase ⊢
      rw [get?_cons herase, get?_cons h, ih]
      by_cases hj : j = a.1
      · subst hj
        rw [if_pos rfl, if_pos rfl, if_neg (Key.ne_of_lt hk)]
      · rw [if_neg hj, if_neg hj]

theorem mem_of_get?_eq_some (h : get? k es = some v) : (k, v) ∈ es := by
  induction es with
  | nil => cases h
  | cons a es ih =>
    rcases Key.trichotomy k a.1 with hk | rfl | hk
    · rw [get?_cons_of_lt hk] at h
      cases h
    · rw [get?_cons_self] at h
      cases h
      exact List.mem_cons_self
    · rw [get?_cons_of_gt hk] at h
      exact List.mem_cons_of_mem a (ih h)

theorem get?_of_mem (hes : Ascending es) (h : e ∈ es) : get? e.1 es = some e.2 := by
  induction es with
  | nil => cases h
  | cons a es ih =>
    have ha := List.pairwise_cons.mp hes
    rcases List.mem_cons.mp h with rfl | h
    · exact get?_cons_self
    · rw [get?_cons_of_gt (ha.1 e h), ih ha.2 h]

theorem ext_get? (he : Ascending es) (hf : Ascending fs) (h : ∀ k, get? k es = get? k fs) :
    es = fs := by
  induction es generalizing fs with
  | nil =>
    cases fs with
    | nil => rfl
    | cons b fs =>
      have hb := h b.1
      rw [get?_cons_self] at hb
      cases hb
  | cons a es ih =>
    have ha := List.pairwise_cons.mp he
    cases fs with
    | nil =>
      have ha := h a.1
      rw [get?_cons_self] at ha
      cases ha
    | cons b fs =>
      have hb := List.pairwise_cons.mp hf
      -- the smaller of the two first keys would be missing from the other list
      have hkey : a.1 = b.1 := by
        refine Key.eq_of_not_lt (fun hlt => ?_) fun hlt => ?_
        · have hsame := h a.1
          rw [get?_cons_self, get?_cons_of_lt hlt] at hsame
          cases hsame
        · have hsame := h b.1
          rw [get?_cons_self, get?_cons_of_lt hlt] at hsame
          cases hsame
      have hvalue : a.2 = b.2 := by
        have hsame := h a.1
        rwa [get?_cons_self, hkey, get?_cons_self, Option.some.injEq] at hsame
      have hrest : es = fs := ih ha.2 hb.2 fun k => by
        rcases Key.trichotomy k a.1 with hk | rfl | hk
        · rw [get?_eq_none_of_forall_lt fun e he => Key.trans hk (ha.1 e he),
            get?_eq_none_of_forall_lt fun e he => Key.trans hk (hkey ▸ hb.1 e he)]
        · rw [get?_eq_none_of_forall_lt ha.1, get?_eq_none_of_forall_lt fun e he => hkey ▸ hb.1 e he]
        · have hsame := h k
          rwa [get?_cons_of_gt hk, get?_cons_of_gt (hkey ▸ hk)] at hsame
      rw [hrest, Prod.ext hkey hvalue]

end Entries

/-- A finite map, listed by ascending key. -/
structure OrderedMap (κ υ : Type) [LT κ] where
  entries : List (κ × υ)
  ascending : Entries.Ascending entries

namespace OrderedMap

variable {κ υ : Type} [LT κ] [DecidableLT κ]

/-- The map without entries. -/
def empty : OrderedMap κ υ := ⟨[], List.Pairwise.nil⟩

instance : Inhabited (OrderedMap κ υ) := ⟨empty⟩

/-- What stands at `k`. -/
def get? (m : OrderedMap κ υ) (k : κ) : Option υ := Entries.get? k m.entries

/-- Whether something stands at `k`. -/
def contains (m : OrderedMap κ υ) (k : κ) : Bool := (m.get? k).isSome

/-- The keys, ascending. -/
def keys (m : OrderedMap κ υ) : List κ := m.entries.map Prod.fst

/-- The values, by ascending key. -/
def values (m : OrderedMap κ υ) : List υ := m.entries.map Prod.snd

variable [Key κ]

/-- Put `v` at `k`, replacing what is there. -/
def insert (m : OrderedMap κ υ) (k : κ) (v : υ) : OrderedMap κ υ :=
  ⟨Entries.insert k v m.entries, Entries.ascending_insert m.ascending⟩

/-- Remove what stands at `k`. -/
def erase (m : OrderedMap κ υ) (k : κ) : OrderedMap κ υ :=
  ⟨Entries.erase k m.entries, Entries.ascending_erase m.ascending⟩

theorem get?_insert [DecidableEq κ] (m : OrderedMap κ υ) (k j : κ) (v : υ) :
    (m.insert k v).get? j = if j = k then some v else m.get? j :=
  Entries.get?_insert m.ascending

theorem get?_erase [DecidableEq κ] (m : OrderedMap κ υ) (k j : κ) :
    (m.erase k).get? j = if j = k then none else m.get? j :=
  Entries.get?_erase m.ascending

theorem get?_of_mem_entries {m : OrderedMap κ υ} {e : κ × υ} (h : e ∈ m.entries) :
    m.get? e.1 = some e.2 :=
  Entries.get?_of_mem m.ascending h

theorem mem_values_iff {m : OrderedMap κ υ} {v : υ} : v ∈ m.values ↔ ∃ k, m.get? k = some v := by
  unfold values
  rw [List.mem_map]
  constructor
  · rintro ⟨e, he, rfl⟩
    exact ⟨e.1, get?_of_mem_entries he⟩
  · rintro ⟨k, hk⟩
    exact ⟨(k, v), Entries.mem_of_get?_eq_some hk, rfl⟩

omit [DecidableLT κ] [Key κ] in
theorem eq_empty_of_values {m : OrderedMap κ υ} (h : m.values = []) : m = empty := by
  cases m with
  | mk es he =>
    obtain rfl : es = [] := List.map_eq_nil_iff.mp h
    rfl

/-- A map is its lookups. -/
theorem ext_get? {m n : OrderedMap κ υ} (h : ∀ k, m.get? k = n.get? k) : m = n := by
  cases m with
  | mk es he =>
    cases n with
    | mk fs hf =>
      cases Entries.ext_get? he hf h
      rfl

/-- Putting something at a free key and removing it leaves the map as it was. -/
theorem erase_insert [DecidableEq κ] {m : OrderedMap κ υ} {k : κ} {v : υ} (h : m.get? k = none) :
    (m.insert k v).erase k = m := by
  apply ext_get?
  intro j
  rw [get?_erase, get?_insert]
  split
  · subst j
    exact h.symm
  · rfl

/-- Replacing something and putting it back leaves the map as it was. -/
theorem insert_insert [DecidableEq κ] {m : OrderedMap κ υ} {k : κ} {v w : υ}
    (h : m.get? k = some w) : (m.insert k v).insert k w = m := by
  apply ext_get?
  intro j
  rw [get?_insert, get?_insert]
  split
  · subst j
    exact h.symm
  · rfl

/-- The map of a list of entries; of two with one key the later counts. -/
def ofList (es : List (κ × υ)) : OrderedMap κ υ :=
  es.foldl (fun m e => m.insert e.1 e.2) empty

end OrderedMap
end SliceRecovery
