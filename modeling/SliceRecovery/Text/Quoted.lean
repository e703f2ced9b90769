import SliceRecovery.Text.Hex
import SliceRecovery.Text.Unprintable

/-!
# SliceRecovery.Text.Quoted -- texts between quotes on one line

Reports show recovered strings between double quotes. The quote, the backslash and the common
controls have an escape of one letter; every other unprintable value is shown by its number.
-/

namespace SliceRecovery.Text.Quoted

/-- The written form of one scalar value. -/
def escape (c : Char) : List Char :=
  if c = '\n' then ['\\', 'n']
  else if c = '\t' then ['\\', 't']
  else if c = '\r' then ['\\', 'r']
  else if c = '\x00' then ['\\', '0']
  else if c = '\\' then ['\\', '\\']
  else if c = '"' then ['\\', '"']
  else if unprintable.contains c then ['\\', 'u', '\x7b'] ++ Hex.lower c.toNat ++ ['\x7d']
  else [c]

/-- A text between double quotes. -/
def write (text : String) : String :=
  String.ofList ('"' :: text.toList.flatMap escape ++ ['"'])

end SliceRecovery.Text.Quoted
