/-!
# SliceRecovery.Yaml.Cursor -- places in a YAML text

Indentation carries meaning, so a place in a text is what is left of it together with the column
and the line. Blanks are the space and the tab; a line ends with one of five breaks, of which all
but the two separators count as a line feed in the value of a scalar.
-/

namespace SliceRecovery.Yaml

/-- A place in a text. -/
structure Cursor where
  rest : List Char
  column : Nat := 0
  line : Nat := 0
  /-- Number of characters before the place. -/
  index : Nat := 0

def isBlank (c : Char) : Bool := c = ' ' || c = '\t'

def isBreak (c : Char) : Bool :=
  c = '\n' || c = '\r' || c = '\u0085' || c = '\u2028' || c = '\u2029'

/-- Whether no word goes on here: a blank, a break or the end follows. -/
def isGap : List Char → Bool
  | [] => true
  | c :: _ => isBlank c || isBreak c

/-- Whether a line ends here. -/
def isLineEnd : List Char → Bool
  | [] => true
  | c :: _ => isBreak c

/-- A character of the names of anchors and tags. -/
def isWord (c : Char) : Bool := c.isAlphanum || c = '_' || c = '-'

/-- The characters that a text may hold. -/
def isAllowed (c : Char) : Bool :=
  c = '\t' || c = '\n' || c = '\r' || c = '\u0085' || (0x20 ≤ c.toNat && c.toNat ≤ 0x7E)
    || (0xA0 ≤ c.toNat && c.toNat ≤ 0xFFFD) || 0x10000 ≤ c.toNat

namespace Cursor

/-- Pass characters of one line. -/
def skip (c : Cursor) (n : Nat) : Cursor :=
  { c with rest := c.rest.drop n, column := c.column + n, index := c.index + n }

/-- Pass characters as long as they satisfy a test that no break satisfies. -/
def skipWhile (c : Cursor) (p : Char → Bool) : Cursor := c.skip (c.rest.takeWhile p).length

/-- Go on at a later place of the same line. -/
def moveTo (c : Cursor) (rest : List Char) : Cursor := c.skip (c.rest.length - rest.length)

/-- The break that stands here, as it counts in a scalar, and the start of the next line. -/
def takeBreak? (c : Cursor) : Option (Char × Cursor) :=
  let next (b : Char) (n : Nat) : Option (Char × Cursor) :=
    some (b, { rest := c.rest.drop n, line := c.line + 1, index := c.index + n })
  match c.rest with
  | '\r' :: '\n' :: _ => next '\n' 2
  | b :: _ =>
    if b = '\u2028' || b = '\u2029' then next b 1
    else if isBreak b then next '\n' 1
    else none
  | [] => none

/-- Whether a line starts here with the mark of a document's start or end. -/
def atDocumentMark (c : Cursor) : Bool :=
  c.column = 0 && (c.rest.take 3 = ['-', '-', '-'] || c.rest.take 3 = ['.', '.', '.'])
    && isGap (c.rest.drop 3)

end Cursor
end SliceRecovery.Yaml
