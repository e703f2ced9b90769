import SliceRecovery.Text.Hex
import SliceRecovery.Yaml.Cursor

/-!
# SliceRecovery.Yaml.Tag -- tags

A tag names the kind of a node. It is written out between `!<` and `>`, or as a handle (`!`, `!!` or
`!word!`) that stands for the first part of the name, followed by the rest. The name consists of
octets, since those that are no plain characters are written as `%` and two digits; the octets of
one character have to stand together, and their number follows from the first. A name ends at an
octet of zero, whatever is written behind it.
-/

namespace SliceRecovery.Yaml

/-- A tag as it is written: its handle, empty if the tag is written out, and the octets behind. -/
structure Tag where
  handle : List Char
  text : List UInt8
  deriving DecidableEq, Repr

/-- What the handles of tags stand for. -/
abbrev Handles := List (List Char × List UInt8)

namespace Tag

/-- The octets of a text of plain characters. -/
def octets (text : String) : List UInt8 := text.toList.map fun c => UInt8.ofNat c.toNat

/-- The handles that need no declaration. -/
def handles : Handles := [(['!'], octets "!"), (['!', '!'], octets "tag:yaml.org,2002:")]

/-- The kind of integers. -/
def int : List UInt8 := octets "tag:yaml.org,2002:int"

/-- The kind of truth values. -/
def bool : List UInt8 := octets "tag:yaml.org,2002:bool"

/-- The name of a tag, unless its handle is unknown. -/
def name? (handles : Handles) (t : Tag) : Option (List UInt8) :=
  if t.handle = [] then some t.text else (handles.lookup t.handle).map (· ++ t.text)

/-! ## Escaped characters -/

/-- An octet written as two digits behind `%`. -/
def octet? : List Char → Option (UInt8 × List Char)
  | '%' :: a :: b :: cs => do
    let a ← Text.Hex.digit? a
    let b ← Text.Hex.digit? b
    some (UInt8.ofNat (16 * a + b), cs)
  | _ => none

/-- How many octets follow the first one of a character. -/
def following? (first : UInt8) : Option Nat :=
  if first < 0x80 then some 0
  else if first < 0xC0 then none
  else if first < 0xE0 then some 1
  else if first < 0xF0 then some 2
  else if first < 0xF8 then some 3
  else none

/-- So many octets from the range of those that are never the first one of a character. -/
def inner? : Nat → List Char → Option (List UInt8 × List Char)
  | 0, cs => some ([], cs)
  | n + 1, cs => do
    let (b, cs) ← octet? cs
    if b < 0x80 ∨ 0xC0 ≤ b then none
    else
      let (bs, cs) ← inner? n cs
      some (b :: bs, cs)

/-- The octets of an escaped character. -/
def escaped? (cs : List Char) : Option (List UInt8 × List Char) := do
  let (first, cs) ← octet? cs
  let (bs, cs) ← inner? (← following? first) cs
  some (first :: bs, cs)

/-! ## Written tags -/

/-- A character that stands for itself. Where a tag is not between brackets, commas and square
brackets end it. -/
def isPlain (bracketed : Bool) (c : Char) : Bool :=
  isWord c || ";/?:@&=+$.!~*'()".toList.contains c || (bracketed && ",[]".toList.contains c)

/-- The octets that are written here, and what follows. -/
def text? (bracketed : Bool) : (fuel : Nat) → List Char → Option (List UInt8 × List Char)
  | 0, _ => none
  | _ + 1, [] => some ([], [])
  | fuel + 1, c :: cs =>
    if c = '%' then do
      let (bs, rest) ← escaped? (c :: cs)
      let (more, rest) ← text? bracketed fuel rest
      some (bs ++ more, rest)
    else if isPlain bracketed c then do
      let (more, rest) ← text? bracketed fuel cs
      some (UInt8.ofNat c.toNat :: more, rest)
    else some ([], c :: cs)

/-- Octets up to the first zero. -/
def upToZero (bs : List UInt8) : List UInt8 := bs.takeWhile (· ≠ 0)

/-- A name of at least one octet. -/
def nonempty? (bracketed : Bool) (cs : List Char) : Option (List UInt8 × List Char) := do
  let (bs, rest) ← text? bracketed (cs.length + 1) cs
  if bs = [] then none else some (upToZero bs, rest)

/-- A tag with the handle `!`. The exclamation mark alone is a name of its own. -/
def short (bs : List UInt8) : Tag :=
  match upToZero bs with
  | [] => ⟨[], octets "!"⟩
  | bs => ⟨['!'], bs⟩

/-- The tag that stands here, and what follows it: a blank, the end of the line or, between
brackets, a comma. -/
def read? (inFlow : Bool) (cs : List Char) : Option (Tag × List Char) := do
  let (tag, rest) ←
    match cs with
    | '!' :: '<' :: cs =>
      match ← nonempty? true cs with
      | (bs, '>' :: rest) => some (⟨[], bs⟩, rest)
      | _ => none
    | _ =>
      let word := (cs.drop 1).takeWhile isWord
      match cs.drop (1 + word.length) with
      | '!' :: cs => (nonempty? false cs).map fun r => (⟨'!' :: word ++ ['!'], r.1⟩, r.2)
      | cs => (text? false (cs.length + 1) cs).map fun r =>
          (short (word.map (fun c => UInt8.ofNat c.toNat) ++ r.1), r.2)
  if isGap rest || (inFlow && rest.head? = some ',') then some (tag, rest) else none

end Tag
end SliceRecovery.Yaml
