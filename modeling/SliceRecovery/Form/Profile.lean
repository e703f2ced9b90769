import SliceRecovery.Recovery.Config
import SliceRecovery.Text.Numeral
import SliceRecovery.Yaml.Node

/-!
# SliceRecovery.Form.Profile -- recovery settings from YAML profiles

A profile is a mapping with some of the settings; an empty one leaves all at their defaults, and
unknown keys are passed over. Numbers and truth values have to be written plainly, or as a block
that keeps its lines and has the tag of their kind, while any scalar is a text.
-/

namespace SliceRecovery.Profile

open Yaml (Node)

/-- The value of a number: decimal without needless zeros, or after `0x`, `0o` or `0b`; one plus
sign may stand in front. -/
def number? (text : List Char) : Option UInt64 :=
  let unsigned :=
    match text with
    | '+' :: cs => cs
    | cs => cs
  let digits (radix : Nat) (cs : List Char) : Option UInt64 :=
    if cs = [] then none else (Text.Numeral.readDigits radix 0 cs).toOption
  match unsigned with
  | '0' :: 'x' :: cs => digits 16 cs
  | '0' :: 'o' :: cs => digits 8 cs
  | '0' :: 'b' :: cs => digits 2 cs
  | '0' :: _ :: _ => none
  | cs => digits 10 cs

def truth? (text : List Char) : Option Bool :=
  let text := String.ofList text
  if text ∈ ["true", "True", "TRUE"] then some true
  else if text ∈ ["false", "False", "FALSE"] then some false
  else none

/-- Whether a scalar may be a value of a kind other than text. -/
def mayBe (kind : List UInt8) (style : Yaml.Style) (tag : Option (List UInt8)) : Bool :=
  style = .plain || (style = .literal && tag = some kind)

def word? : Node → Option UInt64
  | .scalar style tag text => if mayBe Yaml.Tag.int style tag then number? text else none
  | _ => none

def bool? : Node → Option Bool
  | .scalar style tag text => if mayBe Yaml.Tag.bool style tag then truth? text else none
  | _ => none

def text? : Node → Option String
  | .scalar _ _ text => some (String.ofList text)
  | _ => none

/-- The settings that were given. -/
structure Given where
  maxLength : Option UInt64 := none
  sliceTypeName : Option String := none
  displayLead : Option String := none
  requestPass : Option Bool := none

namespace Given

/-- Add an entry of the mapping. A setting may be given once. -/
def add (g : Given) (entry : Node × Node) : Option Given := do
  let key ← text? entry.1
  if key = "max_length" then
    guard g.maxLength.isNone
    return { g with maxLength := some (← word? entry.2) }
  else if key = "slice_type_name" then
    guard g.sliceTypeName.isNone
    return { g with sliceTypeName := some (← text? entry.2) }
  else if key = "name_prefix" then
    guard g.displayLead.isNone
    return { g with displayLead := some (← text? entry.2) }
  else if key = "request_reanalysis" then
    guard g.requestPass.isNone
    return { g with requestPass := some (← bool? entry.2) }
  else return g

/-- The settings, those that were not given at their defaults. -/
def toConfig (g : Given) : RecoveryConfig :=
  let d : RecoveryConfig := {}
  ⟨g.maxLength.getD d.maxLength, g.sliceTypeName.getD d.sliceTypeName,
    g.displayLead.getD d.displayLead, g.requestPass.getD d.requestPass⟩

end Given

/-- The settings in a document. -/
def ofNode? (root : Node) : Option RecoveryConfig :=
  let resolve := Node.resolve (root.numbered [])
  match resolve root with
  | .mapping entries =>
    let entries := entries.map fun e => (resolve e.1, resolve e.2)
    (entries.foldlM Given.add {}).map Given.toConfig
  | .scalar .plain _ [] => some {}
  | _ => none

/-- The settings in the text of a profile. -/
def read? (text : String) : Option RecoveryConfig := do
  match ← Node.ofText? text with
  | none => return {}
  | some node => ofNode? node

end SliceRecovery.Profile
