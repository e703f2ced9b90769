import SliceRecovery.Json.Value
import SliceRecovery.Word

/-!
# SliceRecovery.Json.Token -- JSON texts as tokens

A text is split into tokens up to the first place where no token can be read. What stands there is
remembered in the `Ending`, because whether an unfinished string or something else was met decides
how the reader reports it. Two kinds of token are complete but have no value: a string with half a
surrogate pair and a number beyond the floating-point range.
-/

namespace SliceRecovery.Json

/-- Why a text was refused: it is not JSON, it ends too early, or it is JSON of another shape. -/
inductive Fault
  | malformed
  | truncated
  | mismatched
  deriving DecidableEq, Repr

namespace Fault

/-- The name of the class of a fault. -/
def label : Fault → String
  | malformed => "syntax"
  | truncated => "eof"
  | mismatched => "data"

end Fault

inductive Token
  | openBrace
  | closeBrace
  | openBracket
  | closeBracket
  | comma
  | colon
  | null
  | bool (b : Bool)
  /-- An integer that fits into 64 bits, unsigned or signed. -/
  | int (i : Int)
  /-- Any other number within the floating-point range. -/
  | real
  /-- A number beyond the floating-point range. -/
  | huge
  /-- A string; without a value when half of a surrogate pair stands in it. -/
  | str (s : Option String)
  deriving DecidableEq, Repr

/-- The faults of a token that cannot be completed. Which one is reported depends on whether the
token's value was wanted or is passed over, because a passed token is only looked through for its
end. -/
structure Breakage where
  wanted : Fault
  passed : Fault
  deriving DecidableEq, Repr

namespace Breakage

/-- The same fault for both uses. -/
def both (f : Fault) : Breakage := ⟨f, f⟩

end Breakage

/-- What stands after the last token. -/
inductive Ending
  | finished
  | inString (b : Breakage)
  | inOther (b : Breakage)
  deriving DecidableEq, Repr

namespace Ending

/-- A token that stands where it may not stand. -/
def misplaced : Ending := inOther (.both .malformed)

/-- The fault met where a value should start. -/
def asValue : Ending → Fault
  | finished => .truncated
  | inString b => b.wanted
  | inOther b => b.wanted

/-- The fault met where a value that is passed over should start. -/
def asPassed : Ending → Fault
  | finished => .truncated
  | inString b => b.passed
  | inOther b => b.passed

/-- The fault met where a name should start. -/
def asName : Ending → Fault
  | finished => .truncated
  | inString b => b.wanted
  | inOther _ => .malformed

/-- The ending where a comma, colon or bracket should stand: anything that is there is misplaced. -/
def atMark : Ending → Ending
  | finished => finished
  | _ => misplaced

/-- The fault met where a comma, colon or bracket should stand. -/
def asMark (e : Ending) : Fault := e.atMark.asValue

end Ending

namespace Token

/-- The blanks that may stand between tokens. -/
def isBlank (c : Char) : Bool := c == ' ' || c == '\n' || c == '\t' || c == '\r'

/-! ## Strings -/

/-- The value of four hexadecimal digits. -/
def hex4? (a b c d : Char) : Option Nat := do
  let a ← Text.Hex.digit? a
  let b ← Text.Hex.digit? b
  let c ← Text.Hex.digit? c
  let d ← Text.Hex.digit? d
  return ((a * 16 + b) * 16 + c) * 16 + d

/-- The character of a one-letter escape. -/
def unescape? : Char → Option Char
  | '"' => some '"'
  | '\\' => some '\\'
  | '/' => some '/'
  | 'b' => some '\x08'
  | 'f' => some '\x0c'
  | 'n' => some '\n'
  | 'r' => some '\r'
  | 't' => some '\t'
  | _ => none

/-- What follows `\u`: a code unit, or the fault met while looking for four digits. -/
def codeUnit (cs : List Char) : Except Fault (Nat × List Char) :=
  if (cs.take 4).foldl (fun n c => n + c.utf8Size) 0 < 4 then .error .truncated
  else match cs with
    | a :: b :: c :: d :: rest =>
      match hex4? a b c d with
      | some n => .ok (n, rest)
      | none => .error .malformed
    | _ => .error .malformed

/-- The state of reading a string: its characters so far (last first), the high surrogate just
read, and whether half of a pair was met. -/
structure Draft where
  chars : List Char
  high : Option Nat
  halved : Bool

namespace Draft

/-- Take a character. -/
def push (d : Draft) (c : Char) : Draft := ⟨c :: d.chars, none, d.halved || d.high.isSome⟩

/-- Take a code unit. -/
def pushUnit (d : Draft) (n : Nat) : Draft :=
  if 0xD800 ≤ n ∧ n < 0xDC00 then ⟨d.chars, some n, d.halved || d.high.isSome⟩
  else if 0xDC00 ≤ n ∧ n < 0xE000 then
    match d.high with
    | some hi =>
      ⟨Char.ofNat (0x10000 + (hi - 0xD800) * 0x400 + (n - 0xDC00)) :: d.chars, none, d.halved⟩
    | none => ⟨d.chars, none, true⟩
  else d.push (Char.ofNat n)

/-- The string read. -/
def close (d : Draft) : Token :=
  if d.halved || d.high.isSome then str none else str (some (String.ofList d.chars.reverse))

/-- The faults of a string that cannot be read on: when its value is wanted, half a pair met before
counts first. -/
def breakage (d : Draft) (f : Fault) : Breakage := ⟨if d.halved then .malformed else f, f⟩

end Draft

/-- Read a string after its opening quote. -/
def readString : (fuel : Nat) → Draft → List Char → Except Breakage (Token × List Char)
  | 0, d, _ => .error (d.breakage .truncated)
  | _ + 1, d, [] => .error (d.breakage .truncated)
  | _ + 1, d, '"' :: rest => .ok (d.close, rest)
  | _ + 1, d, ['\\'] => .error (d.breakage .truncated)
  | fuel + 1, d, '\\' :: 'u' :: rest =>
    match codeUnit rest with
    | .ok (n, rest) => readString fuel (d.pushUnit n) rest
    | .error f => .error (d.breakage f)
  | fuel + 1, d, '\\' :: e :: rest =>
    match unescape? e with
    | some c => readString fuel (d.push c) rest
    | none => .error (d.breakage .malformed)
  | fuel + 1, d, c :: rest =>
    if c.toNat < 0x20 then .error (d.breakage .malformed) else readString fuel (d.push c) rest

/-! ## Numbers -/

/-- The value of a run of decimal digits. -/
def natOfDigits (ds : List Char) : Nat := ds.foldl (fun n c => 10 * n + (c.toNat - 48)) 0

/-- A number rounded to 53 significant bits, a half going to the even neighbour. -/
def round53 (m : Nat) : Nat :=
  let unit := Nat.pow 2 (m.log2 + 1 - 53)
  let q := m / unit
  let r := m % unit
  if unit < 2 * r ∨ (2 * r = unit ∧ q % 2 = 1) then (q + 1) * unit else q * unit

/-- Whether `m · 10^e` leaves the floating-point range when the two factors are rounded before they
are multiplied. Dividing by a power never leaves it. -/
def overflows (m : Nat) (e : Int) : Bool :=
  if m = 0 ∨ e ≤ 0 then false
  else if 308 < e then true
  else decide (Nat.pow 2 1024 ≤ round53 (round53 m * round53 (Nat.pow 10 e.toNat)))

/-- Collect integral digits while they fit into 64 bits: the number, and how many digits from the
first that does not fit are left out. -/
def takeWhole : (m : Nat) → List Char → Nat × Nat
  | m, [] => (m, 0)
  | m, c :: cs =>
    let next := 10 * m + (c.toNat - 48)
    if next < Word.span then takeWhole next cs else (m, cs.length + 1)

/-- Collect fractional digits while they fit into 64 bits: the number, and how many were taken. -/
def takeFraction : (m taken : Nat) → List Char → Nat × Nat
  | m, taken, [] => (m, taken)
  | m, taken, c :: cs =>
    let next := 10 * m + (c.toNat - 48)
    if next < Word.span then takeFraction next (taken + 1) cs else (m, taken)

/-- The token of a number with sign, integral digits, fractional digits and exponent. A number that
is no integer of 64 bits keeps as many leading digits as fit into 64 bits. -/
def ofNumber (negative : Bool) (whole fraction : List Char) (exponent : Option Int) : Token :=
  let n := natOfDigits whole
  let plain := fraction.isEmpty && exponent.isNone
  if plain && !negative && n < Word.span then int n
  else if plain && negative && 0 < n && n ≤ Word.half then int (-(n : Int))
  else
    let (m, dropped) := takeWhole 0 whole
    let (m, taken) := takeFraction m 0 fraction
    if overflows m (exponent.getD 0 + dropped - taken) then huge else real

/-- A non-empty run of digits, or the fault met instead. -/
def digits1 (cs : List Char) : Except Fault (List Char × List Char) :=
  match cs.span Char.isDigit with
  | ([], []) => .error .truncated
  | ([], _ :: _) => .error .malformed
  | (ds, rest) => .ok (ds, rest)

/-- The fractional part, if there is one. -/
def readFraction : List Char → Except Fault (List Char × List Char)
  | '.' :: rest => digits1 rest
  | cs => .ok ([], cs)

/-- The exponent, if there is one. -/
def readExponent (cs : List Char) : Except Fault (Option Int × List Char) :=
  match cs with
  | c :: rest =>
    if c = 'e' ∨ c = 'E' then
      match rest with
      | '-' :: rest => (digits1 rest).map fun (ds, r) => (some (-(natOfDigits ds : Int)), r)
      | '+' :: rest => (digits1 rest).map fun (ds, r) => (some (natOfDigits ds : Int), r)
      | rest => (digits1 rest).map fun (ds, r) => (some (natOfDigits ds : Int), r)
    else .ok (none, cs)
  | [] => .ok (none, [])

/-- The integral part: a zero alone, or digits that do not start with zero. -/
def readWhole (cs : List Char) : Except Fault (List Char × List Char) :=
  match digits1 cs with
  | .ok ('0' :: _ :: _, _) => .error .malformed
  | r => r

/-- Read a number after its sign. A number that is passed over is malformed wherever it breaks
off. -/
def readNumber (negative : Bool) (cs : List Char) : Except Breakage (Token × List Char) :=
  let parts := do
    let (whole, rest) ← readWhole cs
    let (fraction, rest) ← readFraction rest
    let (exponent, rest) ← readExponent rest
    return (ofNumber negative whole fraction exponent, rest)
  parts.mapError fun f => ⟨f, .malformed⟩

/-! ## Tokens -/

/-- Read the letters of a literal name. -/
def readLiteral (t : Token) :
    (letters : List Char) → List Char → Except Breakage (Token × List Char)
  | [], rest => .ok (t, rest)
  | _ :: _, [] => .error (.both .truncated)
  | l :: ls, c :: cs => if c = l then readLiteral t ls cs else .error (.both .malformed)

/-- Read the token that starts with a character that is not blank; `fuel` exceeds the number of
characters after it. -/
def readToken (fuel : Nat) (c : Char) (cs : List Char) : Except Ending (Token × List Char) :=
  match c with
  | '\x7b' => .ok (openBrace, cs)
  | '\x7d' => .ok (closeBrace, cs)
  | '[' => .ok (openBracket, cs)
  | ']' => .ok (closeBracket, cs)
  | ',' => .ok (comma, cs)
  | ':' => .ok (colon, cs)
  | '"' => (readString fuel ⟨[], none, false⟩ cs).mapError .inString
  | 'n' => (readLiteral null ['u', 'l', 'l'] cs).mapError .inOther
  | 't' => (readLiteral (bool true) ['r', 'u', 'e'] cs).mapError .inOther
  | 'f' => (readLiteral (bool false) ['a', 'l', 's', 'e'] cs).mapError .inOther
  | '-' => (readNumber true cs).mapError .inOther
  | c =>
    if c.isDigit then (readNumber false (c :: cs)).mapError .inOther
    else .error .misplaced

/-- Split a text into tokens, after the tokens `done` (last first). -/
def scanFrom : (fuel : Nat) → (done : List Token) → List Char → List Token × Ending
  | 0, done, _ => (done.reverse, .finished)
  | _ + 1, done, [] => (done.reverse, .finished)
  | fuel + 1, done, c :: cs =>
    if isBlank c then scanFrom fuel done cs
    else match readToken fuel c cs with
      | .ok (t, rest) => scanFrom fuel (t :: done) rest
      | .error e => (done.reverse, e)

/-- Split a text into tokens. -/
def scan (cs : List Char) : List Token × Ending := scanFrom (cs.length + 1) [] cs

end Token
end SliceRecovery.Json
