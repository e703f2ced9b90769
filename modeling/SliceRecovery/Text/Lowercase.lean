import SliceRecovery.Text.CaseData

/-!
# SliceRecovery.Text.Lowercase -- lower case by the full Unicode mapping

Each scalar value is replaced by its lower-case form. Two of them need more than the simple
mapping: capital I with a dot above becomes two values, and capital sigma becomes the final form
at the end of a word, that is after a cased value and before none, case-ignorable values between
not counting.
-/

namespace SliceRecovery.Text

/-- The simple lower-case form of a scalar value. -/
def simpleLowercase (c : Char) : Char :=
  let n := c.toNat
  match lowercaseRuns.find? fun r => r.first ≤ n && n ≤ r.last && (n - r.first) % r.stride == 0 with
  | some r => Char.ofNat ((n : Int) + r.offset).toNat
  | none => c

/-- Whether the first value that is not case-ignorable is cased. -/
def nextIsCased (cs : List Char) : Bool :=
  match cs.dropWhile caseIgnorable.contains with
  | c :: _ => cased.contains c
  | [] => false

/-- The lower-case form of a value between those before it (nearest first) and those after. -/
def lowercaseIn (before : List Char) (c : Char) (after : List Char) : List Char :=
  if c = 'Σ' then
    if nextIsCased before && !nextIsCased after then ['ς'] else ['σ']
  else if c = 'İ' then ['i', '\u0307']
  else if c.toNat < 128 then [c.toLower]
  else [simpleLowercase c]

/-- The lower-case form of what follows `before` (nearest first). -/
def lowercaseFrom (before : List Char) : List Char → List Char
  | [] => []
  | c :: after => lowercaseIn before c after ++ lowercaseFrom (c :: before) after

/-- A text in lower case. -/
def lowercase (text : String) : String := String.ofList (lowercaseFrom [] text.toList)

end SliceRecovery.Text
