/-!
# SliceRecovery.Text.Hex -- hexadecimal writing of numbers and bytes

Messages write addresses in upper case after `0x`; byte strings and digests are written in lower
case, two digits a byte.
-/

namespace SliceRecovery.Text.Hex

/-- The lower-case digits of a number, at least one. -/
def lower (n : Nat) : List Char := Nat.toDigits 16 n

/-- The upper-case digits of a number, at least one. -/
def upper (n : Nat) : List Char := (Nat.toDigits 16 n).map Char.toUpper

/-- Digits filled up with zeros on the left to a least width. -/
def pad (width : Nat) (digits : List Char) : List Char :=
  List.replicate (width - digits.length) '0' ++ digits

/-- A word after `0x` in upper case. -/
def word (w : UInt64) : String := "0x" ++ String.ofList (upper w.toNat)

/-- A word after `0x` in upper case with at least eight digits. -/
def wideWord (w : UInt64) : String := "0x" ++ String.ofList (pad 8 (upper w.toNat))

/-- Two digits for each byte. -/
def ofBytes (bytes : List UInt8) : String :=
  String.ofList (bytes.flatMap fun b => pad 2 (lower b.toNat))

/-- The value of a hexadecimal digit of either case. -/
def digit? (c : Char) : Option Nat :=
  if '0' ≤ c ∧ c ≤ '9' then some (c.toNat - 48)
  else if 'a' ≤ c ∧ c ≤ 'f' then some (c.toNat - 87)
  else if 'A' ≤ c ∧ c ≤ 'F' then some (c.toNat - 55)
  else none

/-- The bytes written by pairs of digits. -/
def toBytes? : List Char → Option (List UInt8)
  | [] => some []
  | [_] => none
  | a :: b :: rest => do
    let hi ← digit? a
    let lo ← digit? b
    let bytes ← toBytes? rest
    return UInt8.ofNat (16 * hi + lo) :: bytes

end SliceRecovery.Text.Hex
