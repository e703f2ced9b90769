import SliceRecovery.Word
import SliceRecovery.OrderedMap
import SliceRecovery.Json.Reading

/-!
# SliceRecovery.Json.Decode -- records, enumerations and tagged unions from readings

A decoder takes the tree of a text to a value or to the fault that counts: the one nearest the
start of the text. Records are read from an object in any order of members, unknown members being
passed over, or from an array of their fields in order. Parts of a record that is spread over
another one, and the contents of a tagged union, are *held*: the whole text of the part has to be
without faults first, and whatever is wrong with it afterwards is a mismatch.
-/

namespace SliceRecovery.Json

/-- Decoders of readings. -/
abbrev Decoder (α : Type) := Reading → Except Fault α

/-- How a part is decoded: straight from the text, or after its text was set aside. -/
inductive Stage
  | direct
  | held
  deriving DecidableEq

namespace Decode

/-- The fault of a reading whose kind is not the wanted one. -/
def refusal : Reading → Fault
  | .broken e => e.asValue
  | .flawed => .malformed
  | _ => .mismatched

/-! ## Scalars -/

/-- An integer between two bounds. -/
def intBetween (lo hi : Int) : Decoder Int
  | .int i => if lo ≤ i ∧ i ≤ hi then .ok i else .error .mismatched
  | r => .error (refusal r)

def word : Decoder UInt64
  | .int i => if 0 ≤ i ∧ i < Word.span then .ok (UInt64.ofNat i.toNat) else .error .mismatched
  | r => .error (refusal r)

def byte : Decoder UInt8
  | .int i => if 0 ≤ i ∧ i < 256 then .ok (UInt8.ofNat i.toNat) else .error .mismatched
  | r => .error (refusal r)

/-- A signed number of 64 bits. -/
def signed : Decoder Int := intBetween (-(Word.half : Int)) (Word.half - 1)

def text : Decoder String
  | .str s => .ok s
  | r => .error (refusal r)

def bool : Decoder Bool
  | .bool b => .ok b
  | r => .error (refusal r)

/-- A value, or none for `null`. -/
def option {α : Type} (d : Decoder α) : Decoder (Option α)
  | .null => .ok none
  | r => (d r).map some

/-- An array of values. -/
def list {α : Type} (d : Decoder α) : Decoder (List α)
  | .arr items stop => do
    let xs ← items.mapM d
    match stop with
    | none => return xs
    | some f => throw f
  | r => .error (refusal r)

/-- One member of an object read as a map. -/
def entry {α : Type} (d : Decoder α) : Name × Reading → Except Fault (String × α)
  | (.text s, r) => (d r).map fun a => (s, a)
  | _ => .error .malformed

/-- An object read as a map; of two members with one name the later counts. -/
def map {α : Type} (d : Decoder α) : Decoder (OrderedMap String α)
  | .obj members stop => do
    let es ← members.mapM (entry d)
    match stop with
    | none => return OrderedMap.ofList es
    | some f => throw f
  | r => .error (refusal r)

/-! ## Enumerations -/

/-- The value of a name. -/
def named {α : Type} (names : List (String × α)) (s : String) : Except Fault α :=
  match names.lookup s with
  | some a => .ok a
  | none => .error .mismatched

/-- A name, straight from the text: a string, or an object of one member `null`. Any other kind
of value is malformed. -/
def nameDirect {α : Type} (names : List (String × α)) : Decoder α
  | .str s => named names s
  | .broken e => .error e.asName
  | .obj [] (some f) => .error f
  | .obj ((.text s, v) :: more) stop => do
    let a ← named names s
    match v with
    | .null => pure ()
    | v => throw (refusal v)
    match more, stop with
    | [], none => return a
    | [], some f => throw f
    | _ :: _, _ => throw .malformed
  | _ => .error .malformed

/-- A name after its text was set aside: an empty object does for `null` there, and whatever is
wrong is a mismatch. -/
def nameHeld {α : Type} (names : List (String × α)) : Decoder α
  | .str s => named names s
  | .obj [(.text s, .null)] none => named names s
  | .obj [(.text s, .obj [] none)] none => named names s
  | _ => .error .mismatched

/-- A name of an enumeration. -/
def name {α : Type} (stage : Stage) (names : List (String × α)) : Decoder α :=
  match stage with
  | .direct => nameDirect names
  | .held => nameHeld names

/-! ## Placed results -/

/-- A part that was read, or a fault and its place in the record. -/
inductive Placed (α : Type)
  | value (a : α)
  | fault (place : Nat) (f : Fault)

namespace Placed

/-- Of two faults the one with the smaller place counts. -/
def apply {α β : Type} : Placed (α → β) → Placed α → Placed β
  | value g, value a => value (g a)
  | value _, fault p f => fault p f
  | fault p f, value _ => fault p f
  | fault p f, fault q g => if q < p then fault q g else fault p f

instance : Applicative Placed where
  pure := value
  seq g a := apply g (a ())

/-- A result at a place. -/
def ofExcept {α : Type} (place : Nat) : Except Fault α → Placed α
  | .ok a => value a
  | .error f => fault place f

end Placed

/-! ## Records -/

/-- The parts of a record as they stand in the text. -/
structure Parts where
  /-- The values of the fields that were met, each with its place. -/
  fields : List (String × Nat × Reading)
  /-- The first fault that no field's value is to blame for. -/
  fault : Option (Nat × Fault)
  /-- The place after the last part. -/
  size : Nat
  /-- Whether the record was given as an array. -/
  positional : Bool

namespace Parts

/-- Add the member at a place. After a fault nothing more counts. -/
def addMember (wanted : List String) (p : Parts) (m : Name × Reading) : Parts :=
  if p.fault.isSome then p
  else
    let next := { p with size := p.size + 1 }
    match m.1 with
    | .text s =>
      if wanted.contains s then
        if (p.fields.lookup s).isSome then { next with fault := some (p.size, .mismatched) }
        else { next with fields := (s, p.size, m.2) :: p.fields }
      else { next with fault := (Reading.skipFault? m.2).map fun f => (p.size, f) }
    | _ => { next with fault := some (p.size, .malformed) }

/-- Add the fault that ended the text of the record, if no other came first. -/
def addStop (p : Parts) (stop : Option Fault) : Parts :=
  match p.fault, stop with
  | none, some f => { p with fault := some (p.size, f) }
  | _, _ => p

/-- The parts of a record given as an object. -/
def ofMembers (wanted : List String) (members : List (Name × Reading)) (stop : Option Fault) :
    Parts :=
  (members.foldl (addMember wanted) ⟨[], none, 0, false⟩).addStop stop

/-- The parts of a record given as an array of its fields in order. -/
def ofItems (wanted : List String) (items : List Reading) (stop : Option Fault) : Parts :=
  let fields := (wanted.zip items).mapIdx fun i e => (e.1, i, e.2)
  if wanted.length < items.length then ⟨fields, some (wanted.length, .malformed), items.length, true⟩
  else ⟨fields, stop.map fun f => (items.length, f), items.length, true⟩

/-- A field that has to be there. -/
def need {α : Type} (p : Parts) (field : String) (d : Decoder α) : Placed α :=
  match p.fields.lookup field with
  | some (i, r) => .ofExcept i (d r)
  | none => .fault (p.size + 1) .mismatched

/-- A field with a value of its own when it is absent. -/
def getD {α : Type} (p : Parts) (field : String) (d : Decoder α) (default : α) : Placed α :=
  match p.fields.lookup field with
  | some (i, r) => .ofExcept i (d r)
  | none => .value default

/-- A field that may be `null` or absent. -/
def get? {α : Type} (p : Parts) (field : String) (d : Decoder α) : Placed (Option α) :=
  p.getD field (option d) none

/-- A field that may be `null`, and absent from an object but not from an array. -/
def nullable {α : Type} (p : Parts) (field : String) (d : Decoder α) : Placed (Option α) :=
  if p.positional then p.need field (option d) else p.get? field d

/-- The record built from its parts, or the first fault. -/
def finish {α : Type} (p : Parts) : Placed α → Except Fault α
  | .value a =>
    match p.fault with
    | none => .ok a
    | some (_, f) => .error f
  | .fault i f =>
    match p.fault with
    | none => .error f
    | some (j, g) => .error (if j < i then g else f)

end Parts

/-- A record with the wanted fields. -/
def record {α : Type} (wanted : List String) (build : Parts → Placed α) : Decoder α
  | .obj members stop =>
    let p := Parts.ofMembers wanted members stop
    p.finish (build p)
  | .arr items stop =>
    let p := Parts.ofItems wanted items stop
    p.finish (build p)
  | r => .error (refusal r)

/-! ## Held parts -/

/-- Decode a part whose text was set aside: its own faults come first, and everything after them
is a mismatch. -/
def held {α : Type} (d : Decoder α) (r : Reading) : Except Fault α :=
  match Reading.fault? r with
  | some f => .error f
  | none => (d r).mapError fun _ => .mismatched

/-- A record that holds another one spread over its own members. The fields of its own are decoded
where they stand; all other members are held, and given to the other record as an object. -/
structure Spread where
  own : List (String × Nat × Reading)
  rest : List (Name × Reading)
  fault : Option (Nat × Fault)
  size : Nat

namespace Spread

/-- Add the member at a place. After a fault nothing more counts. -/
def addMember (wanted : List String) (s : Spread) (m : Name × Reading) : Spread :=
  if s.fault.isSome then s
  else
    let next := { s with size := s.size + 1 }
    match m.1 with
    | .text k =>
      if wanted.contains k then
        if (s.own.lookup k).isSome then { next with fault := some (s.size, .mismatched) }
        else { next with own := (k, s.size, m.2) :: s.own }
      else
        match Reading.fault? m.2 with
        | some f => { next with fault := some (s.size, f) }
        | none => { next with rest := m :: s.rest }
    | _ => { next with fault := some (s.size, .malformed) }

end Spread

/-- A record with fields of its own and another record spread over its members. -/
def spread {α β γ : Type} (wanted : List String) (build : Parts → Placed α) (inner : Decoder β)
    (join : α → β → γ) : Decoder γ
  | .obj members stop => do
    let s := members.foldl (Spread.addMember wanted) ⟨[], [], none, 0⟩
    let p := Parts.addStop ⟨s.own, s.fault, s.size, false⟩ stop
    let a ← p.finish (build p)
    let b ← (inner (.obj s.rest.reverse none)).mapError fun _ => .mismatched
    return join a b
  | .arr _ _ => .error .mismatched
  | r => .error (refusal r)

/-! ## Tagged unions -/

/-- The decoder of a variant by the value of the tag. Set aside, a tag may also be a number. -/
def variant {α : Type} (stage : Stage) (variants : List (String × α)) : Decoder α
  | .str s => named variants s
  | .int i =>
    match stage with
    | .direct => .error .mismatched
    | .held =>
      match if 0 ≤ i then variants[i.toNat]? else none with
      | some v => .ok v.2
      | none => .error .mismatched
  | r => .error (refusal r)

/-- The variant named by the tag among members read from left to right, and the other members. -/
def splitTag {α : Type} (stage : Stage) (tag : String) (variants : List (String × α)) :
    (found : Option α) → (rest : List (Name × Reading)) → List (Name × Reading) →
    Except Fault (Option α × List (Name × Reading))
  | found, rest, [] => .ok (found, rest.reverse)
  | found, rest, (.text k, v) :: ms =>
    if k = tag then
      match found with
      | some _ => .error .mismatched
      | none =>
        match variant stage variants v with
        | .ok a => splitTag stage tag variants (some a) rest ms
        | .error f => .error f
    else
      match Reading.fault? v with
      | some f => .error f
      | none => splitTag stage tag variants found ((.text k, v) :: rest) ms
  | _, _, _ :: _ => .error .malformed

/-- A tagged union: an object with the tag among its members, or an array that starts with it. -/
def tagged {α : Type} (stage : Stage) (tag : String) (variants : List (String × Decoder α)) :
    Decoder α
  | .obj members stop =>
    match splitTag stage tag variants none [] members with
    | .error f => .error f
    | .ok (found, rest) =>
      match stop, found with
      | some f, _ => .error f
      | none, none => .error .mismatched
      | none, some d => (d (.obj rest none)).mapError fun _ => .mismatched
  | .arr [] (some f) => .error f
  | .arr [] none => .error .mismatched
  | .arr (v :: vs) stop =>
    match variant stage variants v with
    | .error f => .error f
    | .ok d =>
      match Reading.itemsFault? vs <|> stop with
      | some f => .error f
      | none => (d (.arr vs none)).mapError fun _ => .mismatched
  | r => .error (refusal r)

/-- The content of a variant without fields. -/
def noFields {α : Type} (a : α) : Decoder α
  | .arr (_ :: _) _ => .error .mismatched
  | _ => .ok a

/-! ## Texts -/

/-- Decode a whole text. -/
def document {α : Type} (d : Decoder α) (text : String) : Except Fault α := do
  let doc := Reading.document text
  let a ← d doc.root
  match doc.trailing with
  | none => return a
  | some f => throw f

end Decode
end SliceRecovery.Json
