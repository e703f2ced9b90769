import SliceRecovery.Text.Hex
import SliceRecovery.Yaml.Cursor

/-!
# SliceRecovery.Yaml.Scalar -- the values of scalars

Plain and quoted scalars run over lines: a single break between two lines counts as a space, and
of several breaks all but the first count as they are. Block scalars keep their lines (`|`) or join
them in the same way (`>`); a sign in the header says what happens to the breaks at the end. Every
reader here returns nothing for a scalar that is malformed.
-/

namespace SliceRecovery.Yaml

/-- How a scalar is written, as far as it tells what the scalar can be. -/
inductive Style
  | plain
  /-- A block scalar that keeps its lines. -/
  | literal
  /-- A quoted scalar, or a block scalar that joins its lines. -/
  | other
  deriving DecidableEq, Repr

/-! ## Gaps between the words of a flow scalar -/

/-- The blanks and breaks met since the last word. -/
structure Gap where
  blanks : List Char := []
  /-- Whether a line has ended. -/
  wrapped : Bool := false
  /-- The break that ended it, unless it was escaped. -/
  first : List Char := []
  more : List Char := []

namespace Gap

/-- What a gap counts for in the value. -/
def value (g : Gap) : List Char :=
  if g.wrapped then
    if g.first = ['\n'] then if g.more = [] then [' '] else g.more
    else g.first ++ g.more
  else g.blanks

/-- Pass the blanks and breaks that stand here. After a break no tab may stand before the column
`indent`. -/
def pass (indent : Int) : (fuel : Nat) → Gap → Cursor → Option (Gap × Cursor)
  | 0, g, c => some (g, c)
  | fuel + 1, g, c =>
    match c.rest with
    | ' ' :: _ => pass indent fuel (if g.wrapped then g else { g with blanks := g.blanks ++ [' '] })
        (c.skip 1)
    | '\t' :: _ =>
      if g.wrapped && c.column < indent then none
      else pass indent fuel (if g.wrapped then g else { g with blanks := g.blanks ++ ['\t'] })
        (c.skip 1)
    | _ =>
      match c.takeBreak? with
      | none => some (g, c)
      | some (b, c) =>
        if g.wrapped then pass indent fuel { g with more := g.more ++ [b] } c
        else pass indent fuel { wrapped := true, first := [b] } c

end Gap

/-! ## Plain scalars -/

/-- The characters that end a plain scalar inside a flow collection. -/
def isFlowMark (c : Char) : Bool :=
  c = ',' || c = '[' || c = ']' || c = '\x7b' || c = '\x7d'

/-- The rest of a word of a plain scalar. -/
def plainWord? (inFlow : Bool) : List Char → Option (List Char)
  | [] => some []
  | c :: cs =>
    let endsFlow := match cs with
      | d :: _ => isFlowMark d || d = '?'
      | [] => false
    if isBlank c || isBreak c then some []
    else if inFlow && c = ':' && endsFlow then none
    else if (c = ':' && isGap cs) || (inFlow && isFlowMark c) then some []
    else (plainWord? inFlow cs).map (c :: ·)

/-- A scalar that was read: its value, the place after it, and whether the last gap ended a
line. -/
structure ReadScalar where
  value : List Char
  cursor : Cursor
  wrapped : Bool := false

/-- Read on in a plain scalar whose lines are indented to a column. -/
def plainFrom (inFlow : Bool) (indent : Int) : (fuel : Nat) → (value : List Char) → Gap → Cursor →
    Option ReadScalar
  | 0, _, _, _ => none
  | fuel + 1, value, gap, c =>
    if c.atDocumentMark || c.rest.head? = some '#' then some ⟨value, c, gap.wrapped⟩
    else do
      let word ← plainWord? inFlow c.rest
      let (value, gap) := if word = [] then (value, gap) else (value ++ gap.value ++ word, {})
      let c := c.skip word.length
      if isGap c.rest && c.rest ≠ [] then
        let (gap, c) ← gap.pass indent (c.rest.length + 1) c
        if !inFlow && c.column < indent then some ⟨value, c, gap.wrapped⟩
        else plainFrom inFlow indent fuel value gap c
      else some ⟨value, c, gap.wrapped⟩

/-- Read a plain scalar. -/
def plainScalar (inFlow : Bool) (indent : Int) (c : Cursor) : Option ReadScalar :=
  plainFrom inFlow indent (c.rest.length + 1) [] {} c

/-! ## Quoted scalars -/

/-- The character written by hexadecimal digits. -/
def hexChar? (digits : List Char) : Option Char := do
  let n ← digits.foldlM (fun n d => (Text.Hex.digit? d).map (16 * n + ·)) 0
  if n < 0xD800 ∨ (0xDFFF < n ∧ n ≤ 0x10FFFF) then some (Char.ofNat n) else none

/-- The character escaped after a backslash, and what follows. -/
def unescape? : List Char → Option (Char × List Char)
  | [] => none
  | 'x' :: cs => hex 2 cs
  | 'u' :: cs => hex 4 cs
  | 'U' :: cs => hex 8 cs
  | c :: cs =>
    let table : List (Char × Char) :=
      [('0', '\x00'), ('a', '\x07'), ('b', '\x08'), ('t', '\t'), ('\t', '\t'), ('n', '\n'),
        ('v', '\x0b'), ('f', '\x0c'), ('r', '\r'), ('e', '\x1b'), (' ', ' '), ('"', '"'),
        ('/', '/'), ('\\', '\\'), ('N', '\u0085'), ('_', '\u00a0'), ('L', '\u2028'),
        ('P', '\u2029')]
    (table.lookup c).map fun x => (x, cs)
where
  hex (n : Nat) (cs : List Char) : Option (Char × List Char) :=
    if cs.length < n then none else (hexChar? (cs.take n)).map fun c => (c, cs.drop n)

/-- Where a word of a quoted scalar ends. -/
inductive WordEnd
  | quote
  | gap
  | escapedBreak

/-- Read a word of a quoted scalar; `word` was read before (last first). -/
def quotedWord? (double : Bool) : (fuel : Nat) → (word : List Char) → List Char →
    Option (List Char × WordEnd × List Char)
  | 0, _, _ => none
  | _ + 1, word, [] => some (word.reverse, .gap, [])
  | fuel + 1, word, c :: cs =>
    if isBlank c || isBreak c then some (word.reverse, .gap, c :: cs)
    else if double then
      if c = '"' then some (word.reverse, .quote, cs)
      else if c = '\\' then
        if isLineEnd cs && cs ≠ [] then some (word.reverse, .escapedBreak, cs)
        else match unescape? cs with
          | some (x, cs) => quotedWord? double fuel (x :: word) cs
          | none => none
      else quotedWord? double fuel (c :: word) cs
    else if c = '\'' then
      match cs with
      | '\'' :: cs => quotedWord? double fuel ('\'' :: word) cs
      | cs => some (word.reverse, .quote, cs)
    else quotedWord? double fuel (c :: word) cs

/-- Read on in a quoted scalar. -/
def quotedFrom (double : Bool) : (fuel : Nat) → (value : List Char) → Cursor → Option ReadScalar
  | 0, _, _ => none
  | fuel + 1, value, c =>
    if c.atDocumentMark || c.rest = [] then none
    else do
      let (word, ending, rest) ← quotedWord? double (c.rest.length + 1) [] c.rest
      let c := c.moveTo rest
      let value := value ++ word
      match ending with
      | .quote => some ⟨value, c, false⟩
      | .gap =>
        let (gap, c) ← Gap.pass 0 (c.rest.length + 1) {} c
        quotedFrom double fuel (value ++ gap.value) c
      | .escapedBreak =>
        let (_, c) ← c.takeBreak?
        let (gap, c) ← Gap.pass 0 (c.rest.length + 1) { wrapped := true } c
        quotedFrom double fuel (value ++ gap.value) c

/-- Read a quoted scalar after its opening quote. -/
def quotedScalar (double : Bool) (c : Cursor) : Option ReadScalar :=
  quotedFrom double (c.rest.length + 1) [] c

/-! ## Block scalars -/

/-- What happens to the breaks at the end of a block scalar. -/
inductive Chomp
  | strip
  | clip
  | keep

/-- The sign of a header, if one stands here. -/
def chomp? : List Char → Chomp × List Char
  | '-' :: cs => (.strip, cs)
  | '+' :: cs => (.keep, cs)
  | cs => (.clip, cs)

/-- The indentation that a header gives, zero for none. -/
def indentation? : List Char → Option (Nat × List Char)
  | '0' :: _ => none
  | c :: cs => if c.isDigit then some (c.toNat - 48, cs) else some (0, c :: cs)
  | [] => some (0, [])

/-- The sign and the indentation of a header, in either order. -/
def blockHeader? (cs : List Char) : Option (Chomp × Nat × List Char) :=
  match chomp? cs with
  | (.clip, cs) => do
    let (n, cs) ← indentation? cs
    let (chomp, cs) := if n = 0 then (.clip, cs) else chomp? cs
    some (chomp, n, cs)
  | (chomp, cs) => do
    let (n, cs) ← indentation? cs
    some (chomp, n, cs)

/-- Pass the indentation of the next lines and the breaks of empty ones. `indent` is unknown as
long as it is zero; `widest` is the greatest column reached. -/
def blockBreaks (indent : Nat) : (fuel : Nat) → (widest : Nat) → (breaks : List Char) → Cursor →
    Option (Nat × List Char × Cursor)
  | 0, _, _, _ => none
  | fuel + 1, widest, breaks, c =>
    let spaces := (c.rest.takeWhile (· = ' ')).length
    let c := c.skip (if indent = 0 then spaces else min spaces (indent - c.column))
    let widest := max widest c.column
    if (indent = 0 || c.column < indent) && c.rest.head? = some '\t' then none
    else match c.takeBreak? with
      | none => some (widest, breaks, c)
      | some (b, c) => blockBreaks indent fuel widest (breaks ++ [b]) c

/-- Read the lines of a block scalar. `first` is the break after the line before, and `blank`
whether that line started with a blank. -/
def blockLines (folded : Bool) (chomp : Chomp) (indent : Nat) : (fuel : Nat) →
    (value first : List Char) → (blank : Bool) → (more : List Char) → Cursor → Option ReadScalar
  | 0, _, _, _, _, _ => none
  | fuel + 1, value, first, blank, more, c =>
    if c.column = indent && c.rest ≠ [] then do
      let startsBlank := (c.rest.head?.map isBlank).getD false
      let joined :=
        if folded && first = ['\n'] && !blank && !startsBlank then if more = [] then [' '] else []
        else first
      let line := c.rest.takeWhile fun x => !isBreak x
      let value := value ++ joined ++ more ++ line
      let c := c.skip line.length
      let (first, c) := match c.takeBreak? with
        | some (b, c) => ([b], c)
        | none => ([], c)
      let (_, more, c) ← blockBreaks indent (c.rest.length + 1) 0 [] c
      blockLines folded chomp indent fuel value first startsBlank more c
    else
      match chomp with
      | .strip => some ⟨value, c, true⟩
      | .clip => some ⟨value ++ first, c, true⟩
      | .keep => some ⟨value ++ first ++ more, c, true⟩

/-- Read a block scalar after its `|` or `>`; `outer` is the indentation around it. -/
def blockScalar (folded : Bool) (outer : Int) (c : Cursor) : Option ReadScalar := do
  let (chomp, n, rest) ← blockHeader? c.rest
  let c := (c.moveTo rest).skipWhile isBlank
  let c := if c.rest.head? = some '#' then c.skipWhile (fun x => !isBreak x) else c
  if !isLineEnd c.rest then none
  else
    let c := match c.takeBreak? with
      | some (_, c) => c
      | none => c
    let given := if n = 0 then 0 else n + outer.toNat
    let (widest, more, c) ← blockBreaks given (c.rest.length + 1) 0 [] c
    let indent := if given = 0 then max widest (max (outer + 1).toNat 1) else given
    blockLines folded chomp indent (c.rest.length + 1) [] [] false more c

end SliceRecovery.Yaml
