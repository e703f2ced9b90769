import SliceRecovery.Text.Hex

/-!
# SliceRecovery.Json.Value -- JSON values and their two layouts

All numbers that are written are integers. A value is written on one line (`compact`) or with a
line for every item and two more blanks for every level (`indented`); the two layouts differ only
in blanks between tokens.
-/

namespace SliceRecovery

/-- A JSON value whose numbers are integers. -/
inductive Json
  | null
  | bool (b : Bool)
  | int (i : Int)
  | str (s : String)
  | arr (items : List Json)
  | obj (members : List (String × Json))
  deriving Inhabited

namespace Json

/-- A number from a word. -/
def word (w : UInt64) : Json := int w.toNat

/-- A value, or `null` for none. -/
def nullable {α : Type} (f : α → Json) : Option α → Json
  | none => null
  | some a => f a

/-- One member if there is a value, none otherwise. -/
def member? {α : Type} (name : String) (f : α → Json) : Option α → List (String × Json)
  | none => []
  | some a => [(name, f a)]

/-- An array of encoded items. -/
def list {α : Type} (f : α → Json) (xs : List α) : Json := arr (xs.map f)

/-- How blanks are placed between tokens. -/
inductive Layout
  | compact
  | indented
  deriving DecidableEq

/-- The written form of one character inside a string. -/
def escape (c : Char) : List Char :=
  if c = '"' then ['\\', '"']
  else if c = '\\' then ['\\', '\\']
  else if c = '\x08' then ['\\', 'b']
  else if c = '\x0c' then ['\\', 'f']
  else if c = '\n' then ['\\', 'n']
  else if c = '\r' then ['\\', 'r']
  else if c = '\t' then ['\\', 't']
  else if c.toNat < 0x20 then ['\\', 'u'] ++ Text.Hex.pad 4 (Text.Hex.lower c.toNat)
  else [c]

/-- A string between its quotes. -/
def quote (s : String) : List Char := '"' :: s.toList.flatMap escape ++ ['"']

namespace Layout

/-- The break before an item at a level. -/
def lineBreak (l : Layout) (level : Nat) : List Char :=
  match l with
  | compact => []
  | indented => '\n' :: List.replicate (2 * level) ' '

/-- What stands between a name and its value. -/
def colon : Layout → List Char
  | compact => [':']
  | indented => [':', ' ']

end Layout

/- The written characters are collected last first, so that long arrays need no deep stack. -/
mutual

/-- Write a value at a level after the characters `done` (last first). -/
def emit (l : Layout) (level : Nat) : Json → (done : List Char) → List Char
  | null, done => "null".toList.reverseAux done
  | bool true, done => "true".toList.reverseAux done
  | bool false, done => "false".toList.reverseAux done
  | int i, done => (toString i).toList.reverseAux done
  | str s, done => (quote s).reverseAux done
  | arr [], done => ']' :: '[' :: done
  | arr (v :: vs), done =>
    let items := emitItems l (level + 1) vs
      (emit l (level + 1) v ((l.lineBreak (level + 1)).reverseAux ('[' :: done)))
    ']' :: (l.lineBreak level).reverseAux items
  | obj [], done => '\x7d' :: '\x7b' :: done
  | obj ((k, v) :: ms), done =>
    let members := emitMembers l (level + 1) ms
      (emit l (level + 1) v (l.colon.reverseAux ((quote k).reverseAux
        ((l.lineBreak (level + 1)).reverseAux ('\x7b' :: done)))))
    '\x7d' :: (l.lineBreak level).reverseAux members

/-- Write the items after the first. -/
def emitItems (l : Layout) (level : Nat) : List Json → (done : List Char) → List Char
  | [], done => done
  | v :: vs, done =>
    emitItems l level vs (emit l level v ((l.lineBreak level).reverseAux (',' :: done)))

/-- Write the members after the first. -/
def emitMembers (l : Layout) (level : Nat) : List (String × Json) → (done : List Char) → List Char
  | [], done => done
  | (k, v) :: ms, done =>
    emitMembers l level ms (emit l level v (l.colon.reverseAux ((quote k).reverseAux
      ((l.lineBreak level).reverseAux (',' :: done)))))

end

/-- The characters of a value in a layout. -/
def chars (l : Layout) (v : Json) : List Char := (emit l 0 v []).reverse

/-- A value on one line, without blanks. -/
def compact (v : Json) : String := String.ofList (chars .compact v)

/-- A value with a line for every item. -/
def indented (v : Json) : String := String.ofList (chars .indented v)

end Json
end SliceRecovery
