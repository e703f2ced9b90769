import SliceRecovery.Types.DataType

/-!
# SliceRecovery.Proofs.Widths -- widths in a larger table of types

A width is found by following names through the table, and is unknown where a name is missing. So a
table in which further names are defined gives every width that there was before, and gives it
unchanged; and where measuring stopped at an overflow, it stops there again.
-/

namespace SliceRecovery

namespace TypeTable

variable {types types' : TypeTable} {f g : DataType → Width} {packed : Bool}
  {offset v w next : UInt64} {fields : List Field} {fuel : Nat} {t : DataType}

/-- Every definition of one table stands in the other. -/
def Within (types types' : TypeTable) : Prop :=
  ∀ name c, types.get? name = some c → types'.get? name = some c

theorem within_insert {name : String} {c : Composite} (hfree : types.get? name = none) :
    Within types (types.insert name c) := by
  intro other d hd
  rw [OrderedMap.get?_insert, if_neg]
  · exact hd
  · rintro rfl
    rw [hfree] at hd
    cases hd

/-! ## Fields -/

theorem place_eq_known_iff :
    place packed offset w = .known next ↔
      ∃ start, start? packed offset w = some start ∧ Word.add? start w = some next := by
  unfold place
  cases start? packed offset w <;> simp [Width.ofOption_eq_known_iff]

/-- Only the start of a field overflows, as its end is unknown where it is not a word. -/
theorem place_eq_overflow_iff : place packed offset w = .overflow ↔ start? packed offset w = none := by
  unfold place
  cases start? packed offset w <;> simp [Width.ofOption_ne_overflow]

/-- Fields are laid out one by one, each with its width. -/
theorem layOut_cons_eq_known_iff {field : Field} :
    layOut f packed offset (field :: fields) = .known w ↔
      ∃ v next, f field.type = .known v ∧ place packed offset v = .known next ∧
        layOut f packed next fields = .known w := by
  simp only [layOut, Width.bind_eq_known_iff, exists_and_left]

/-- Fields overflow at the first that does, if those in front of it have an end. -/
theorem layOut_cons_eq_overflow_iff {field : Field} :
    layOut f packed offset (field :: fields) = .overflow ↔
      f field.type = .overflow ∨ ∃ v, f field.type = .known v ∧
        (start? packed offset v = none ∨ ∃ next, place packed offset v = .known next ∧
          layOut f packed next fields = .overflow) := by
  simp only [layOut, Width.bind_eq_overflow_iff, place_eq_overflow_iff]

/-- Fields are laid out alike by measures that agree where the first knows more than nothing. -/
theorem layOut_congr (hfg : ∀ t, f t ≠ .unknown → g t = f t)
    (hw : layOut f packed offset fields ≠ .unknown) :
    layOut g packed offset fields = layOut f packed offset fields := by
  induction fields generalizing offset with
  | nil => rfl
  | cons field fields ih =>
    unfold layOut at hw ⊢
    cases hf : f field.type with
    | unknown =>
      rw [hf] at hw
      exact absurd rfl hw
    | overflow => rw [hfg _ (by rw [hf]; nofun), hf]; rfl
    | known v =>
      rw [hfg _ (by rw [hf]; nofun), hf]
      rw [hf, Width.bind_known] at hw
      rw [Width.bind_known, Width.bind_known]
      cases hp : place packed offset v with
      | unknown => rfl
      | overflow => rfl
      | known next =>
        rw [hp, Width.bind_known] at hw
        exact ih hw

/-! ## Types -/

theorem widthWithin_named_eq_known_iff {name : String} :
    widthWithin types (fuel + 1) (.named name) = .known w ↔
      ∃ c, types.get? name = some c ∧
        layOut (widthWithin types fuel) c.packed 0 c.fields = .known w := by
  rw [widthWithin]
  cases types.get? name <;> simp

theorem widthWithin_named_eq_overflow_iff {name : String} :
    widthWithin types (fuel + 1) (.named name) = .overflow ↔
      ∃ c, types.get? name = some c ∧
        layOut (widthWithin types fuel) c.packed 0 c.fields = .overflow := by
  rw [widthWithin]
  cases types.get? name <;> simp

theorem widthWithin_array_eq_known_iff {element : DataType} {count : UInt64} :
    widthWithin types (fuel + 1) (.array element count) = .known w ↔
      ∃ v, widthWithin types fuel element = .known v ∧ Word.mulCapped v count = w := by
  simp only [widthWithin, Width.bind_eq_known_iff, Width.known.injEq]

theorem widthWithin_array_eq_overflow_iff {element : DataType} {count : UInt64} :
    widthWithin types (fuel + 1) (.array element count) = .overflow ↔
      widthWithin types fuel element = .overflow := by
  simp [widthWithin, Width.bind_eq_overflow_iff]

/-- Further definitions change nothing that was found. -/
theorem widthWithin_of_within (hwithin : Within types types')
    (hw : widthWithin types fuel t ≠ .unknown) :
    widthWithin types' fuel t = widthWithin types fuel t := by
  -- both tables allow the same nesting of names, so the induction is on that and not on the type
  induction fuel generalizing t with
  | zero => exact absurd rfl hw
  | succ fuel ih =>
    cases t with
    | named name =>
      unfold widthWithin at hw ⊢
      cases hc : types.get? name with
      | none =>
        rw [hc] at hw
        exact absurd rfl hw
      | some c =>
        rw [hc] at hw
        rw [hwithin name c hc]
        exact layOut_congr (fun _ => ih) hw
    | array element n =>
      unfold widthWithin at hw ⊢
      rw [ih]
      intro he
      rw [he] at hw
      exact hw rfl
    | pointer _ _ => rfl
    | integer _ _ => rfl
    | char => rfl
    | raw _ => rfl

theorem widthWithin?_eq_some_iff :
    widthWithin? types fuel t = some w ↔ widthWithin types fuel t = .known w :=
  Width.bytes?_eq_some_iff

theorem width?_eq_some_iff : width? types t = some w ↔ width types t = .known w :=
  Width.bytes?_eq_some_iff

theorem width_of_within (hwithin : Within types types') (hw : width types t ≠ .unknown) :
    width types' t = width types t :=
  widthWithin_of_within hwithin hw

theorem widthWithin?_of_within (hwithin : Within types types')
    (hw : widthWithin? types fuel t = some w) : widthWithin? types' fuel t = some w := by
  rw [widthWithin?_eq_some_iff] at hw ⊢
  rw [widthWithin_of_within hwithin (by rw [hw]; nofun), hw]

theorem width?_of_within (hwithin : Within types types') (hw : width? types t = some w) :
    width? types' t = some w :=
  widthWithin?_of_within hwithin hw

end TypeTable

end SliceRecovery
