import SliceRecovery.Word
import SliceRecovery.Text.Blank
import SliceRecovery.Text.Hex

/-!
# SliceRecovery.Text.Numeral -- words written in decimal or after `0x`

A numeral is a run of decimal digits, or `0x` or `0X` and a run of hexadecimal digits of either
case; one `+` may stand before the digits, and blanks around the whole are ignored. What is wrong
with any other text is one of three things, decided from left to right: a run of digits that
already reaches 2^64 is too large whatever follows it.
-/

namespace SliceRecovery.Text.Numeral

/-- What keeps a text from being a numeral. -/
inductive Fault
  | empty
  | badDigit
  | tooLarge
  deriving DecidableEq, Repr

namespace Fault

def message : Fault → String
  | empty => "cannot parse integer from empty string"
  | badDigit => "invalid digit found in string"
  | tooLarge => "number too large to fit in target type"

end Fault

/-- The value of a digit of a radix up to sixteen. -/
def digit? (radix : Nat) (c : Char) : Option Nat :=
  match Hex.digit? c with
  | some d => if d < radix then some d else none
  | none => none

/-- Read the digits that remain after a run of value `n`. -/
def readDigits (radix : Nat) (n : Nat) : List Char → Except Fault UInt64
  | [] => .ok (UInt64.ofNat n)
  | c :: cs =>
    match digit? radix c with
    | none => .error .badDigit
    | some d =>
      if radix * n + d < Word.span then readDigits radix (radix * n + d) cs
      else .error .tooLarge

/-- Read digits of a radix, after one optional plus sign. -/
def readSigned (radix : Nat) : List Char → Except Fault UInt64
  | [] => .error .empty
  | ['+'] => .error .badDigit
  | '+' :: cs => readDigits radix 0 cs
  | cs => readDigits radix 0 cs

/-- Read a numeral without blanks around it. -/
def readTrimmed : List Char → Except Fault UInt64
  | '0' :: 'x' :: cs => readSigned 16 cs
  | '0' :: 'X' :: cs => readSigned 16 cs
  | cs => readSigned 10 cs

/-- Read a numeral. -/
def read (text : String) : Except Fault UInt64 := readTrimmed (trim text.toList)

/-- The sentence that reports a refused numeral, showing it untrimmed. -/
def refusal (text : String) (f : Fault) : String :=
  s!"invalid number '{text}': {f.message}"

/-- Read a numeral, or report why it is refused. -/
def parse (text : String) : Except String UInt64 := (read text).mapError (refusal text)

/-- A signed number of 64 bits in decimal, after one optional sign. -/
def readInteger? (text : String) : Option Int :=
  let digits? (cs : List Char) : Option Nat :=
    if cs = [] then none
    else cs.foldlM (fun n c => (digit? 10 c).map (10 * n + ·)) 0
  let value : Option Int :=
    match text.toList with
    | '-' :: cs => (digits? cs).map fun n => -n
    | '+' :: cs => (digits? cs).map fun n => n
    | cs => (digits? cs).map fun n => n
  value.filter fun i => -(Word.half : Int) ≤ i && i < Word.half

end SliceRecovery.Text.Numeral
