import SliceRecovery.Yaml.Token

/-!
# SliceRecovery.Yaml.Node -- YAML documents as trees

A node is a scalar, a sequence or a mapping; a scalar keeps how it was written and its tag, because
these tell whether it may be a number or a truth value. An anchor gives a node a number, and an
alias names the number that its anchor has where the alias stands. What a number means is settled
only for the document as a whole: the last node that has the number. Since an anchor that is set
anew takes the count of names set so far, it may share its number with the next new name, and then
means that name's node.

A text is read as a whole and holds at most one document.
-/

namespace SliceRecovery.Yaml

inductive Node
  | scalar (style : Style) (tag : Option (List UInt8)) (text : List Char)
  | sequence (items : List Node)
  | mapping (entries : List (Node × Node))
  /-- A node with an anchor of a number. -/
  | anchored (number : Nat) (node : Node)
  | aliasOf (number : Nat)
  deriving Inhabited

/-- The tokens that are left, the numbers of the anchors met, and the tag handles declared. -/
structure Context where
  tokens : List Token
  anchors : List (List Char × Nat) := []
  handles : Handles := []

/-- Readers of tokens. -/
abbrev Reader := StateT Context Option

namespace Node

def peek : Reader (Option Token) := return (← get).tokens.head?

def pop : Reader Unit := modify fun c => { c with tokens := c.tokens.tail }

/-- Take a token of one kind. -/
def expect (t : Token) : Reader Unit := do
  if (← peek) = some t then pop else failure

/-- What may stand before a node. -/
structure Properties where
  anchor : Option (List Char) := none
  tag : Option (List UInt8) := none

namespace Properties

/-- Whether there is a node even if nothing follows. -/
def isMarked (p : Properties) : Bool := p.anchor.isSome || p.tag.isSome

/-- Take an anchor if one stands here. -/
def takeAnchor (p : Properties) : Reader Properties := do
  match ← peek with
  | some (.anchor n) => pop; return { p with anchor := some n }
  | _ => return p

/-- Take a tag if one stands here. -/
def takeTag (p : Properties) : Reader Properties := do
  match ← peek with
  | some (.tag t) =>
    match t.name? ((← get).handles ++ Tag.handles) with
    | some name => pop; return { p with tag := some name }
    | none => failure
  | _ => return p

/-- The properties that stand here: an anchor, a tag, or both in either order. -/
def take : Reader Properties := do
  let p ← takeAnchor {}
  let p ← p.takeTag
  if p.anchor.isNone && p.tag.isSome then p.takeAnchor else return p

/-- Number the anchor, if there is one; the function puts the number on the node. -/
def number (p : Properties) : Reader (Node → Node) := do
  match p.anchor with
  | none => return id
  | some name =>
    let c ← get
    let n := c.anchors.length
    set { c with anchors := (name, n) :: c.anchors.filter (·.1 ≠ name) }
    return anchored n

end Properties

/-- A node that is not written. -/
def empty : Node := scalar .plain none []

mutual

/-- Read a node. A block node may be a block collection; an indentless one may be a sequence at
the column of its key. -/
def read : (fuel : Nat) → (block indentless : Bool) → Reader Node
  | 0, _, _ => failure
  | fuel + 1, block, indentless => do
    match ← peek with
    | some (.aliasOf name) =>
      match (← get).anchors.lookup name with
      | none => failure
      | some n => pop; return aliasOf n
    | _ =>
      let p ← Properties.take
      let put ← p.number
      let unwritten : Reader Node :=
        if p.isMarked then return put (scalar .plain p.tag []) else failure
      match ← peek with
      | some (.scalar style text) => pop; return put (scalar style p.tag text)
      | some .flowSequence => pop; return put (sequence (← flowItems fuel true))
      | some .flowMapping => pop; return put (mapping (← flowEntries fuel true))
      | some .blockSequence =>
        if block then pop; return put (sequence (← blockItems fuel)) else unwritten
      | some .blockMapping =>
        if block then pop; return put (mapping (← blockEntries fuel)) else unwritten
      | some .blockEntry =>
        if indentless then return put (sequence (← indentlessItems fuel)) else unwritten
      | _ => unwritten

/-- Read a node, or an empty one before any of the given tokens. -/
def readUnless : (fuel : Nat) → (block indentless : Bool) → (stops : List Token) → Reader Node
  | 0, _, _, _ => failure
  | fuel + 1, block, indentless, stops => do
    match ← peek with
    | some t => if stops.contains t then return empty else read fuel block indentless
    | none => read fuel block indentless

/-- The items of a block sequence. -/
def blockItems : (fuel : Nat) → Reader (List Node)
  | 0 => failure
  | fuel + 1 => do
    match ← peek with
    | some .blockEntry =>
      pop
      let item ← readUnless fuel true false [.blockEntry, .blockEnd]
      return item :: (← blockItems fuel)
    | some .blockEnd => pop; return []
    | _ => failure

/-- The items of a sequence that stands at the column of its key. -/
def indentlessItems : (fuel : Nat) → Reader (List Node)
  | 0 => failure
  | fuel + 1 => do
    match ← peek with
    | some .blockEntry =>
      pop
      let item ← readUnless fuel true false [.blockEntry, .key, .value, .blockEnd]
      return item :: (← indentlessItems fuel)
    | _ => return []

/-- The entries of a block mapping. -/
def blockEntries : (fuel : Nat) → Reader (List (Node × Node))
  | 0 => failure
  | fuel + 1 => do
    match ← peek with
    | some .key =>
      pop
      let k ← readUnless fuel true true [.key, .value, .blockEnd]
      let v ← valueAfter fuel true [.key, .value, .blockEnd]
      return (k, v) :: (← blockEntries fuel)
    | some .blockEnd => pop; return []
    | _ => failure

/-- The value of a key, empty if there is no mark. -/
def valueAfter : (fuel : Nat) → (block : Bool) → (stops : List Token) → Reader Node
  | 0, _, _ => failure
  | fuel + 1, block, stops => do
    match ← peek with
    | some .value => pop; readUnless fuel block block stops
    | _ => return empty

/-- The items of a flow sequence; a key without braces makes a mapping of one entry. If nothing is
written behind the mark of such a key, the token that shows it is lost. -/
def flowItems : (fuel : Nat) → (first : Bool) → Reader (List Node)
  | 0, _ => failure
  | fuel + 1, first => do
    match ← peek with
    | some .flowSequenceEnd => pop; return []
    | _ =>
      if !first then expect .flowEntry
      match ← peek with
      | some .flowSequenceEnd => pop; return []
      | some .key =>
        pop
        let k ←
          match ← peek with
          | some .value | some .flowEntry | some .flowSequenceEnd => pop; pure empty
          | _ => read fuel false false
        let v ← valueAfter fuel false [.flowEntry, .flowSequenceEnd]
        return mapping [(k, v)] :: (← flowItems fuel false)
      | _ =>
        let item ← read fuel false false
        return item :: (← flowItems fuel false)

/-- The entries of a flow mapping; an item without a key mark has an empty value. -/
def flowEntries : (fuel : Nat) → (first : Bool) → Reader (List (Node × Node))
  | 0, _ => failure
  | fuel + 1, first => do
    match ← peek with
    | some .flowMappingEnd => pop; return []
    | _ =>
      if !first then expect .flowEntry
      match ← peek with
      | some .flowMappingEnd => pop; return []
      | some .key =>
        pop
        let k ← readUnless fuel false false [.value, .flowEntry, .flowMappingEnd]
        let v ← valueAfter fuel false [.flowEntry, .flowMappingEnd]
        return (k, v) :: (← flowEntries fuel false)
      | _ =>
        let k ← read fuel false false
        return (k, empty) :: (← flowEntries fuel false)

end

/-- Read the directives before a document. Neither the version nor a handle is given twice. -/
def directives : (fuel : Nat) → (versioned : Bool) → Reader Unit
  | 0, _ => failure
  | fuel + 1, versioned => do
    match ← peek with
    | some (.directive (.version supported)) =>
      if versioned || !supported then failure
      pop
      directives fuel true
    | some (.directive (.handle name text)) =>
      if ((← get).handles.lookup name).isSome then failure
      pop
      modify fun c => { c with handles := c.handles ++ [(name, text)] }
      directives fuel versioned
    | _ => return

/-- Take the marks at the end of a document. -/
def documentEnds : (fuel : Nat) → Reader Unit
  | 0 => return
  | fuel + 1 => do
    match ← peek with
    | some .documentEnd => pop; documentEnds fuel
    | _ => return

/-- Read the only document. -/
def onlyDocument (fuel : Nat) : Reader Node := do
  let explicit (n : Node) : Reader Node := do
    documentEnds fuel
    if (← peek).isSome then failure else return n
  match ← peek with
  | some (.directive _) | some .documentStart =>
    directives fuel false
    expect .documentStart
    match ← peek with
    | none | some .documentStart | some .documentEnd | some (.directive _) => explicit empty
    | _ => explicit (← read fuel true false)
  | _ => explicit (← read fuel true false)

/-! ## Numbered nodes -/

mutual

/-- The numbered nodes of a tree in the order in which they start, behind those before (last
first). -/
def numbered (before : List (Nat × Node)) : Node → List (Nat × Node)
  | anchored n node => numbered ((n, node) :: before) node
  | sequence items => numberedItems before items
  | mapping entries => numberedEntries before entries
  | _ => before

def numberedItems (before : List (Nat × Node)) : List Node → List (Nat × Node)
  | [] => before
  | item :: items => numberedItems (numbered before item) items

def numberedEntries (before : List (Nat × Node)) : List (Node × Node) → List (Nat × Node)
  | [] => before
  | (k, v) :: entries => numberedEntries (numbered (numbered before k) v) entries

end

/-- A node without its anchors. -/
def bare : Node → Node
  | anchored _ node => bare node
  | node => node

/-- The node that a node stands for, given all numbered nodes (last first). -/
def resolve (all : List (Nat × Node)) (node : Node) : Node :=
  match bare node with
  | aliasOf n => ((all.lookup n).map bare).getD (aliasOf n)
  | node => node

/-! ## Texts -/

/-- The document of a list of tokens, none if there is no token. Malformed tokens give nothing. -/
def ofTokens? (ts : List Token) : Option (Option Node) :=
  if ts = [] then some none
  else
    let fuel := 3 * ts.length + 4
    ((onlyDocument fuel).run { tokens := ts }).map fun r => some r.1

/-- The document of a text, none if the text holds no document. A malformed text, or one of
several documents, gives nothing. -/
def ofText? (text : String) : Option (Option Node) := do
  ofTokens? (← Token.scan text.toList)

end Node
end SliceRecovery.Yaml
