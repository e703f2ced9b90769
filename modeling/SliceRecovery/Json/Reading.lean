import SliceRecovery.Json.Token

/-!
# SliceRecovery.Json.Reading -- the tree of a text up to the place where it stops being JSON

A text is read into a tree even if it is not JSON all the way: the tree then holds what stands
before the first fault and the fault itself. A decoder that walks such a tree from left to right
meets the faults of the text and the mismatches of its own in the order of the text, so the first
of all of them is the one that is reported.

At most 127 arrays and objects may be open at once.
-/

namespace SliceRecovery.Json

/-- What stands where the name of a member should stand. -/
inductive Name
  | text (s : String)
  /-- A string with half a surrogate pair. -/
  | halved
  /-- A value that is not a string. -/
  | other
  deriving DecidableEq, Repr

/-- The tree of a text up to its first fault. A container's `stop` is the fault that kept it from
being closed after its last part. -/
inductive Reading
  | null
  | bool (b : Bool)
  | int (i : Int)
  | real
  | str (s : String)
  /-- A complete token that has no value. -/
  | flawed
  /-- No value could be read here because of what stands here instead. -/
  | broken (e : Ending)
  | arr (items : List Reading) (stop : Option Fault)
  | obj (members : List (Name × Reading)) (stop : Option Fault)
  deriving Inhabited

namespace Reading

/-- The most arrays and objects that may be open at once. -/
def depthLimit : Nat := 127

/-- The leaf or start of a container of a token, if a value may start with it. -/
def leaf? : Token → Option Reading
  | .null => some .null
  | .bool b => some (.bool b)
  | .int i => some (.int i)
  | .real => some .real
  | .huge => some .flawed
  | .str (some s) => some (.str s)
  | .str none => some .flawed
  | _ => none

/- Each reader returns what it read and the tokens that follow, or no tokens when it stopped at a
fault. -/
mutual

/-- Read a value with `room` more containers allowed. -/
def readValue (ending : Ending) : (fuel room : Nat) → List Token → Reading × Option (List Token)
  | 0, _, _ => (broken .finished, none)
  | _ + 1, _, [] => (broken ending, none)
  | fuel + 1, room, t :: ts =>
    match t, room with
    | .openBracket, 0 => (arr [] (some .malformed), none)
    | .openBracket, room + 1 =>
      match ts with
      | .closeBracket :: rest => (arr [] none, some rest)
      | ts => readItems ending fuel room [] ts
    | .openBrace, 0 => (obj [] (some .malformed), none)
    | .openBrace, room + 1 =>
      match ts with
      | .closeBrace :: rest => (obj [] none, some rest)
      | ts => readMembers ending fuel room [] ts
    | t, _ =>
      match leaf? t with
      | some v => (v, some ts)
      | none => (broken .misplaced, none)

/-- Read an item and those after it, behind the items `done` (last first). -/
def readItems (ending : Ending) : (fuel room : Nat) → (done : List Reading) → List Token →
    Reading × Option (List Token)
  | 0, _, done, _ => (arr done.reverse (some .truncated), none)
  | fuel + 1, room, done, ts =>
    match readValue ending fuel room ts with
    | (v, none) => (arr (v :: done).reverse (some .malformed), none)
    | (v, some (.comma :: rest)) => readItems ending fuel room (v :: done) rest
    | (v, some (.closeBracket :: rest)) => (arr (v :: done).reverse none, some rest)
    | (v, some (_ :: _)) => (arr (v :: done).reverse (some .malformed), none)
    | (v, some []) => (arr (v :: done).reverse (some ending.asMark), none)

/-- Read a member and those after it, behind the members `done` (last first). -/
def readMembers (ending : Ending) : (fuel room : Nat) → (done : List (Name × Reading)) →
    List Token → Reading × Option (List Token)
  | 0, _, done, _ => (obj done.reverse (some .truncated), none)
  | _ + 1, _, done, [] => (obj done.reverse (some ending.asName), none)
  | fuel + 1, room, done, .str s :: ts =>
    let name := match s with
      | some s => Name.text s
      | none => .halved
    match ts with
    | .colon :: ts =>
      match readValue ending fuel room ts with
      | (v, none) => (obj ((name, v) :: done).reverse (some .malformed), none)
      | (v, some (.comma :: rest)) => readMembers ending fuel room ((name, v) :: done) rest
      | (v, some (.closeBrace :: rest)) => (obj ((name, v) :: done).reverse none, some rest)
      | (v, some (_ :: _)) => (obj ((name, v) :: done).reverse (some .malformed), none)
      | (v, some []) => (obj ((name, v) :: done).reverse (some ending.asMark), none)
    | [] => (obj ((name, broken ending.atMark) :: done).reverse (some .malformed), none)
    | _ :: _ => (obj ((name, broken .misplaced) :: done).reverse (some .malformed), none)
  | _ + 1, _, done, t :: _ =>
    match t with
    | .closeBrace | .closeBracket | .comma | .colon => (obj done.reverse (some .malformed), none)
    | _ => (obj ((.other, broken .misplaced) :: done).reverse (some .malformed), none)

end

/-- A text as a tree, with the fault of anything that follows a complete value. -/
structure Document where
  root : Reading
  trailing : Option Fault

/-- Read a text. -/
def document (text : String) : Document :=
  let (ts, ending) := Token.scan text.toList
  match readValue ending (2 * ts.length + 2) depthLimit ts with
  | (v, none) => ⟨v, none⟩
  | (v, some (_ :: _)) => ⟨v, some .malformed⟩
  | (v, some []) => ⟨v, if ending = .finished then none else some .malformed⟩

/-! ## Faults inside a tree -/

/- The first fault in the order of the text when every value is wanted. -/
mutual

def fault? : Reading → Option Fault
  | flawed => some .malformed
  | broken e => some e.asValue
  | arr items stop => itemsFault? items <|> stop
  | obj members stop => membersFault? members <|> stop
  | _ => none

def itemsFault? : List Reading → Option Fault
  | [] => none
  | v :: vs => fault? v <|> itemsFault? vs

def membersFault? : List (Name × Reading) → Option Fault
  | [] => none
  | (.text _, v) :: ms => fault? v <|> membersFault? ms
  | _ :: _ => some .malformed

end

/- The first fault in the order of the text when no value is wanted: complete tokens are then
passed over whether they have a value or not. -/
mutual

def skipFault? : Reading → Option Fault
  | broken e => some e.asPassed
  | arr items stop => skipItems? items <|> stop
  | obj members stop => skipMembers? members <|> stop
  | _ => none

def skipItems? : List Reading → Option Fault
  | [] => none
  | v :: vs => skipFault? v <|> skipItems? vs

def skipMembers? : List (Name × Reading) → Option Fault
  | [] => none
  | (.other, _) :: _ => some .malformed
  | (_, v) :: ms => skipFault? v <|> skipMembers? ms

end

/- Number of containers around the deepest leaf. -/
mutual

def depth : Reading → Nat
  | arr items _ => itemsDepth items + 1
  | obj members _ => membersDepth members + 1
  | _ => 0

def itemsDepth : List Reading → Nat
  | [] => 0
  | v :: vs => max (depth v) (itemsDepth vs)

def membersDepth : List (Name × Reading) → Nat
  | [] => 0
  | (_, v) :: ms => max (depth v) (membersDepth ms)

end

/- The tree of a value. -/
mutual

def ofJson : Json → Reading
  | .null => null
  | .bool b => bool b
  | .int i => int i
  | .str s => str s
  | .arr items => arr (itemsOfJson items) none
  | .obj members => obj (membersOfJson members) none

def itemsOfJson : List Json → List Reading
  | [] => []
  | v :: vs => ofJson v :: itemsOfJson vs

def membersOfJson : List (String × Json) → List (Name × Reading)
  | [] => []
  | (k, v) :: ms => (.text k, ofJson v) :: membersOfJson ms

end

end Reading
end SliceRecovery.Json
