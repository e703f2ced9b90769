import SliceRecovery.Yaml.Directive
import SliceRecovery.Yaml.Scalar

/-!
# SliceRecovery.Yaml.Token -- YAML texts as tokens

Indentation becomes tokens of its own: a block collection starts where a line goes deeper and ends
where one goes back. A key needs no mark in front of it, so that its token and the start of its
mapping are put in afterwards, when the `:` behind it is met; a key that may still turn out to be
one is *pending*, on one line and for at most 1024 characters.
-/

namespace SliceRecovery.Yaml

inductive Token
  | directive (d : Directive)
  | documentStart
  | documentEnd
  | blockSequence
  | blockMapping
  | blockEnd
  | flowSequence
  | flowSequenceEnd
  | flowMapping
  | flowMappingEnd
  | blockEntry
  | flowEntry
  | key
  | value
  | aliasOf (name : List Char)
  | anchor (name : List Char)
  | tag (t : Tag)
  | scalar (style : Style) (text : List Char)
  deriving DecidableEq, Repr

/-- A place where a key may have started. -/
structure PendingKey where
  /-- Whether nothing but a key can stand there. -/
  required : Bool
  /-- The number of tokens before the key. -/
  position : Nat
  cursor : Cursor

/-- The tokens so far, and where the text stands. -/
structure Scan where
  cursor : Cursor
  tokens : List Token := []
  /-- The column of the innermost block collection, -1 outside of all. -/
  indent : Int := -1
  outer : List Int := []
  pending : Option PendingKey := none
  /-- The pending keys around each open flow collection, innermost first. -/
  flows : List (Option PendingKey) := []
  /-- Whether a key without a mark may start here. -/
  keyAllowed : Bool := true

namespace Scan

def inFlow (s : Scan) : Bool := !s.flows.isEmpty

def push (s : Scan) (t : Token) : Scan := { s with tokens := s.tokens ++ [t] }

/-- Put a token in front of the one at a position. -/
def pushAt (s : Scan) (position : Nat) (t : Token) : Scan :=
  { s with tokens := s.tokens.take position ++ t :: s.tokens.drop position }

/-- A token of so many characters. -/
def mark (s : Scan) (n : Nat) (t : Token) : Scan := { s.push t with cursor := s.cursor.skip n }

/-! ## Indentation -/

/-- Start a block collection if the column is deeper than the innermost one. -/
def deepen (s : Scan) (column position : Nat) (t : Token) : Scan :=
  if !s.inFlow && s.indent < column then
    { s.pushAt position t with indent := column, outer := s.indent :: s.outer }
  else s

/-- End the block collections that are deeper than a column. -/
def undent (column : Int) : (fuel : Nat) → Scan → Scan
  | 0, s => s
  | fuel + 1, s =>
    if !s.inFlow && column < s.indent then
      undent column fuel { s.push .blockEnd with
        indent := s.outer.head?.getD (-1), outer := s.outer.tail }
    else s

def undentTo (s : Scan) (column : Int) : Scan := undent column (s.outer.length + 1) s

/-! ## Pending keys -/

/-- Give up the pending key, which must not be required. -/
def dropKey (s : Scan) : Option Scan :=
  match s.pending with
  | some ⟨true, _, _⟩ => none
  | _ => some { s with pending := none }

/-- Note that a key may start here. -/
def noteKey (s : Scan) : Option Scan :=
  if s.keyAllowed then do
    let s ← s.dropKey
    let required := !s.inFlow && s.indent = s.cursor.column
    some { s with pending := some ⟨required, s.tokens.length, s.cursor⟩ }
  else some s

/-- Forget a pending key that is too far back. -/
def refresh (now : Cursor) : Option PendingKey → Option (Option PendingKey)
  | none => some none
  | some k =>
    if k.cursor.line < now.line || k.cursor.index + 1024 < now.index then
      if k.required then none else some none
    else some (some k)

/-- Forget all pending keys that are too far back. -/
def refreshKeys (s : Scan) : Option Scan := do
  let pending ← refresh s.cursor s.pending
  let flows ← s.flows.mapM (refresh s.cursor)
  some { s with pending, flows }

/-! ## Between tokens -/

/-- Pass blanks, comments and breaks, and a byte-order mark at the start of a line. Where a key may
start, tabs are no blanks. -/
def gap : (fuel : Nat) → Scan → Scan
  | 0, s => s
  | fuel + 1, s =>
    let c := s.cursor
    let c := if c.column = 0 && c.rest.head? = some '\ufeff' then c.skip 1 else c
    let tabs := s.inFlow || !s.keyAllowed
    let c := c.skipWhile fun x => x = ' ' || (tabs && x = '\t')
    let c := if c.rest.head? = some '#' then c.skipWhile (fun x => !isBreak x) else c
    match c.takeBreak? with
    | none => { s with cursor := c }
    | some (_, c) => gap fuel { s with cursor := c, keyAllowed := s.keyAllowed || !s.inFlow }

/-! ## Tokens -/

/-- A line that starts with a percent sign, with its break: no key may start on the next line. -/
def directive (s : Scan) : Option Scan := do
  let (d, rest) ← Directive.read? (s.cursor.rest.drop 1)
  let s ← (s.undentTo (-1)).dropKey
  let c := s.cursor.moveTo rest
  let c := match c.takeBreak? with
    | some (_, c) => c
    | none => c
  some { s.push (.directive d) with keyAllowed := false, cursor := c }

/-- The start of a token that may begin a key. -/
def atom (s : Scan) : Option Scan := do
  let s ← s.noteKey
  some { s with keyAllowed := false }

/-- A scalar that was read. -/
def putScalar (s : Scan) (style : Style) (r : ReadScalar) : Scan :=
  { s.push (.scalar style r.value) with
    cursor := r.cursor, keyAllowed := s.keyAllowed || r.wrapped }

/-- The name of an anchor or alias after its mark. -/
def named (s : Scan) (token : List Char → Token) : Option Scan := do
  let s ← s.atom
  let name := (s.cursor.rest.drop 1).takeWhile isWord
  let rest := s.cursor.rest.drop (1 + name.length)
  let ends := isGap rest || (rest.head?.map fun c => "?:,]\x7d%@`".toList.contains c).getD false
  if name = [] || !ends then none else some (s.mark (1 + name.length) (token name))

/-- The opening of a flow collection. -/
def openFlow (s : Scan) (t : Token) : Option Scan := do
  let s ← s.noteKey
  some { s.mark 1 t with pending := none, flows := s.pending :: s.flows, keyAllowed := true }

/-- The closing of a flow collection. -/
def closeFlow (s : Scan) (t : Token) : Option Scan := do
  let s ← s.dropKey
  some { s.mark 1 t with
    pending := (s.flows.head?.getD none), flows := s.flows.tail, keyAllowed := false }

/-- A mark that stands before an item or a key, or the refusal of one that may not stand here. -/
def blockMark (s : Scan) (collection t : Token) (keyAllowed : Bool) : Option Scan := do
  if !s.inFlow && !s.keyAllowed then none
  else
    let s ← (s.deepen s.cursor.column s.tokens.length collection).dropKey
    some { s.mark 1 t with keyAllowed }

/-- The mark between a key and its value. -/
def valueMark (s : Scan) : Option Scan :=
  match s.pending with
  | some k =>
    let s := (s.pushAt k.position .key).deepen k.cursor.column k.position .blockMapping
    some { s.mark 1 .value with pending := none, keyAllowed := false }
  | none =>
    if !s.inFlow && !s.keyAllowed then none
    else
      let s := s.deepen s.cursor.column s.tokens.length .blockMapping
      some { s.mark 1 .value with keyAllowed := !s.inFlow }

/-- Whether a plain scalar starts with these characters. -/
def startsPlain (inFlow : Bool) (cs : List Char) : Bool :=
  match cs with
  | [] => false
  | c :: rest =>
    (!isGap cs && !"-?:,[]\x7b\x7d#&*!|>'\"%@`".toList.contains c)
      || (c = '-' && !(rest.head?.map isBlank).getD false)
      || (!inFlow && (c = '?' || c = ':') && !isGap rest)

/-- Read the token that starts here. -/
def token (s : Scan) : Option Scan :=
  let c := s.cursor
  let rest := c.rest.tail
  let loose := s.inFlow || isGap rest
  match c.rest.head? with
  | none => some s
  | some x =>
    if c.column = 0 && x = '%' then s.directive
    else if c.atDocumentMark then do
      let s ← (s.undentTo (-1)).dropKey
      some { s.mark 3 (if x = '-' then .documentStart else .documentEnd) with keyAllowed := false }
    else if x = '[' then s.openFlow .flowSequence
    else if x = '\x7b' then s.openFlow .flowMapping
    else if x = ']' then s.closeFlow .flowSequenceEnd
    else if x = '\x7d' then s.closeFlow .flowMappingEnd
    else if x = ',' then do
      let s ← s.dropKey
      some { s.mark 1 .flowEntry with keyAllowed := true }
    else if x = '-' && isGap rest then s.blockMark .blockSequence .blockEntry true
    else if x = '?' && loose then s.blockMark .blockMapping .key (!s.inFlow)
    else if x = ':' && loose then s.valueMark
    else if x = '*' then s.named .aliasOf
    else if x = '&' then s.named .anchor
    else if x = '!' then do
      let s ← s.atom
      let (tag, after) ← Tag.read? s.inFlow c.rest
      some (s.mark (c.rest.length - after.length) (.tag tag))
    else if (x = '|' || x = '>') && !s.inFlow then do
      let s ← s.dropKey
      let style := if x = '|' then Style.literal else .other
      (blockScalar (x = '>') s.indent (c.skip 1)).map ({ s with keyAllowed := true }.putScalar style)
    else if x = '\'' || x = '"' then do
      let s ← s.atom
      (quotedScalar (x = '"') (c.skip 1)).map (s.putScalar .other)
    else if startsPlain s.inFlow c.rest then do
      let s ← s.atom
      (plainScalar s.inFlow (s.indent + 1) c).map (s.putScalar .plain)
    else none

/-- Read all tokens. -/
def run : (fuel : Nat) → Scan → Option (List Token)
  | 0, _ => none
  | fuel + 1, s => do
    let s ← (gap (s.cursor.rest.length + 1) s).refreshKeys
    let s := s.undentTo s.cursor.column
    if s.cursor.rest = [] then
      let s ← (s.undentTo (-1)).dropKey
      some s.tokens
    else run fuel (← s.token)

end Scan

namespace Token

/-- The tokens of a text, if it has any fault none. -/
def scan (text : List Char) : Option (List Token) :=
  if text.all isAllowed then Scan.run (text.length + 1) { cursor := ⟨text, 0, 0, 0⟩ } else none

end Token
end SliceRecovery.Yaml
