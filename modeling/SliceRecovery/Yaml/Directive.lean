import SliceRecovery.Yaml.Tag

/-!
# SliceRecovery.Yaml.Directive -- the lines that start with a percent sign

Two kinds of such lines are known: one names the version of the format, the other declares a handle
of tags. A comment may end the line.
-/

namespace SliceRecovery.Yaml

inductive Directive
  /-- A version, with whether it is one that is read. -/
  | version (supported : Bool)
  /-- A handle and what it stands for. -/
  | handle (name : List Char) (text : List UInt8)
  deriving DecidableEq, Repr

namespace Directive

/-- What follows the blanks that stand here. -/
def pastBlanks (cs : List Char) : List Char := cs.dropWhile isBlank

/-- A number of at most nine digits. -/
def number? (cs : List Char) : Option (Nat × List Char) :=
  let digits := cs.takeWhile Char.isDigit
  if digits = [] || 9 < digits.length then none
  else some (Nat.ofDigitChars 10 digits 0, cs.drop digits.length)

/-- The version behind the name of a version line. -/
def version? (cs : List Char) : Option (Directive × List Char) := do
  let (major, cs) ← number? (pastBlanks cs)
  match cs with
  | '.' :: cs =>
    let (minor, cs) ← number? cs
    some (version (major = 1 && minor ∈ [1, 2]), cs)
  | _ => none

/-- The handle and the text behind the name of a handle line. -/
def handle? (cs : List Char) : Option (Directive × List Char) :=
  match pastBlanks cs with
  | '!' :: cs => do
    let word := cs.takeWhile isWord
    let (name, cs) ←
      match word, cs.drop word.length with
      | word, '!' :: cs => some ('!' :: word ++ ['!'], cs)
      | [], cs => some (['!'], cs)
      | _, _ => none
    if !(cs.head?.map isBlank).getD false then none
    else
      let (text, cs) ← Tag.nonempty? true (pastBlanks cs)
      if isGap cs then some (handle name text, cs) else none
  | _ => none

/-- What follows the blanks and the comment at the end of a line, which must end there. -/
def lineEnd? (cs : List Char) : Option (List Char) :=
  let cs := pastBlanks cs
  let cs := if cs.head? = some '#' then cs.dropWhile (fun c => !isBreak c) else cs
  if isLineEnd cs then some cs else none

/-- The line that stands here behind its percent sign, and what follows it. -/
def read? (cs : List Char) : Option (Directive × List Char) := do
  let word := cs.takeWhile isWord
  let cs := cs.drop word.length
  if !isGap cs then none
  else
    let (d, cs) ←
      if word = ['Y', 'A', 'M', 'L'] then version? cs
      else if word = ['T', 'A', 'G'] then handle? cs
      else none
    some (d, ← lineEnd? cs)

end Directive
end SliceRecovery.Yaml
