import SliceRecovery.OrderedMap
import SliceRecovery.Word

/-!
# SliceRecovery.Types.DataType -- declared types and their widths

The width of most types is their own; that of a named type is found by laying its fields out in
the order of the table of named types, each on a boundary that fits it unless the type is packed.
Nesting through array elements and fields is followed sixteen steps deep and no further, which
also ends the search in a type that contains itself.

A sum that is not a word leaves the width unknown. An offset that is rounded up past the largest word
does not: it is an overflow, at which the program stops.
-/

namespace SliceRecovery

/-- The classes of types that the analysis tells apart. -/
inductive DataKind
  | pointer
  | integer
  | array
  | composite
  | other
  deriving DecidableEq, Repr

/-- The declared type of a place in memory. Widths are in bytes. -/
inductive DataType
  | pointer (width : UInt64) (target : Option DataType)
  | integer (width : UInt64) (signed : Bool)
  | char
  | array (element : DataType) (count : UInt64)
  /-- An instance of a named composite type. -/
  | named (name : String)
  /-- Bytes of which only the number is known. -/
  | raw (width : UInt64)
  deriving Repr

/-- A field of a composite type. -/
structure Field where
  name : String
  type : DataType
  deriving Repr

/-- The definition of a named composite type. -/
structure Composite where
  packed : Bool
  fields : List Field
  deriving Repr

/-- The named types of an analysis. -/
abbrev TypeTable := OrderedMap String Composite

/-- What measuring a type comes to. -/
inductive Width
  /-- A number of bytes. -/
  | known (w : UInt64)
  /-- A name is not defined, nesting is too deep or a sum is not a word. -/
  | unknown
  /-- An offset was rounded up past the largest word, and no more was measured. -/
  | overflow
  deriving DecidableEq, Repr

namespace Width

def ofOption : Option UInt64 → Width
  | some w => known w
  | none => unknown

/-- The number of bytes, if it is known. -/
def bytes? : Width → Option UInt64
  | known w => some w
  | unknown => none
  | overflow => none

/-- Go on with the number of bytes, if it is known. -/
def bind (m : Width) (f : UInt64 → Width) : Width :=
  match m with
  | known w => f w
  | unknown => unknown
  | overflow => overflow

variable {m : Width} {f : UInt64 → Width} {v w : UInt64}

@[simp] theorem bind_known : (known v).bind f = f v := rfl

theorem bytes?_eq_some_iff : m.bytes? = some w ↔ m = known w := by cases m <;> simp [bytes?]

theorem ofOption_eq_known_iff {o : Option UInt64} : ofOption o = known w ↔ o = some w := by
  cases o <;> simp [ofOption]

theorem ofOption_ne_overflow {o : Option UInt64} : ofOption o ≠ overflow := by
  cases o <;> simp [ofOption]

theorem bind_eq_known_iff : m.bind f = known w ↔ ∃ v, m = known v ∧ f v = known w := by
  cases m <;> simp [bind]

theorem bind_eq_overflow_iff :
    m.bind f = overflow ↔ m = overflow ∨ ∃ v, m = known v ∧ f v = overflow := by
  cases m <;> simp [bind]

end Width

namespace DataType

def kind : DataType → DataKind
  | pointer _ _ => .pointer
  | integer _ _ => .integer
  | char => .integer
  | array _ _ => .array
  | named _ => .composite
  | raw _ => .other

/-- A pointer with a known target. -/
def pointerTo (target : DataType) (width : UInt64) : DataType := pointer width (some target)

def unsigned (width : UInt64) : DataType := integer width false

/-- An array of characters. -/
def text (count : UInt64) : DataType := array char count

/-- The width that a type has without a table of named types. -/
def width? : DataType → Option UInt64
  | pointer w _ => some w
  | integer w _ => some w
  | raw w => some w
  | char => some 1
  | array e n => (width? e).map (Word.mulCapped · n)
  | named _ => none

/-- An array whose elements are one byte wide. -/
def isByteArray : DataType → Bool
  | array e _ => width? e = some 1
  | _ => false

/-- The element count of an array. -/
def arrayLength? : DataType → Option UInt64
  | array _ n => some n
  | _ => none

end DataType

namespace TypeTable

/-- How many nesting steps are followed below a type. -/
def nestingLimit : Nat := 16

/-- The boundary of a field of a width: the least power of two that is not below the width, the
width being held between 1 and 8. -/
def boundary (w : UInt64) : UInt64 :=
  if w ≤ 1 then 1 else if w ≤ 2 then 2 else if w ≤ 4 then 4 else 8

/-- An offset moved up to the next multiple of a boundary, if that is a word. -/
def roundUp? (offset b : UInt64) : Option UInt64 :=
  Word.mul? (if offset % b = 0 then offset / b else offset / b + 1) b

/-- The offset at which a field of a width is placed that follows offset `offset`. -/
def start? (packed : Bool) (offset w : UInt64) : Option UInt64 :=
  if packed then some offset else roundUp? offset (boundary w)

/-- The offset after a field of a width that follows offset `offset`. -/
def place (packed : Bool) (offset w : UInt64) : Width :=
  match start? packed offset w with
  | none => .overflow
  | some start => .ofOption (Word.add? start w)

/-- The offset after the fields that follow offset `offset`. They are measured one by one. -/
def layOut (width : DataType → Width) (packed : Bool) : (offset : UInt64) → List Field → Width
  | offset, [] => .known offset
  | offset, f :: fs =>
    (width f.type).bind fun w =>
      (place packed offset w).bind fun next => layOut width packed next fs

/-- The width of a type when nesting may be followed through fewer than `fuel` more steps. -/
def widthWithin (table : TypeTable) : (fuel : Nat) → DataType → Width
  | 0, _ => .unknown
  | fuel + 1, .named n =>
    match table.get? n with
    | none => .unknown
    | some c => layOut (widthWithin table fuel) c.packed 0 c.fields
  | fuel + 1, .array e n => (widthWithin table fuel e).bind fun w => .known (Word.mulCapped w n)
  | _ + 1, t => .ofOption t.width?

/-- The width of a type. -/
def width (table : TypeTable) (t : DataType) : Width := widthWithin table (nestingLimit + 1) t

/-- The number of bytes of a type, if nesting through fewer than `fuel` steps gives it. -/
def widthWithin? (table : TypeTable) (fuel : Nat) (t : DataType) : Option UInt64 :=
  (widthWithin table fuel t).bytes?

/-- The number of bytes of a type, if it is known. -/
def width? (table : TypeTable) (t : DataType) : Option UInt64 := (width table t).bytes?

end TypeTable
end SliceRecovery
