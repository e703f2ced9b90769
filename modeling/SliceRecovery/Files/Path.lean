/-!
# SliceRecovery.Files.Path -- paths as texts

A path is the text that names a file, and nothing here looks at files. The text is cut at every
`/`; empty pieces and pieces `.` are *idle*, except a `.` at the very start, and so do not count as
components. Operations keep the idle pieces that stand inside the text they keep, because messages
show paths as they were given.
-/

namespace SliceRecovery

/-- The text that names a file. -/
structure Path where
  chars : List Char
  deriving DecidableEq, Repr, Inhabited

namespace Path

def ofString (s : String) : Path := ⟨s.toList⟩

def toString (p : Path) : String := String.ofList p.chars

instance : ToString Path := ⟨toString⟩

/-! ## Pieces -/

/-- The pieces between slashes, one more than there are slashes. -/
def cut : List Char → List (List Char)
  | [] => [[]]
  | c :: cs =>
    if c = '/' then [] :: cut cs
    else match cut cs with
      | [] => [[c]]
      | piece :: pieces => (c :: piece) :: pieces

/-- Pieces with a slash between each two. -/
def paste : List (List Char) → List Char
  | [] => []
  | [piece] => piece
  | piece :: pieces => piece ++ '/' :: paste pieces

/-- A piece that names nothing. -/
def isIdle (piece : List Char) : Bool := piece = [] || piece = ['.']

/-- Leave out idle pieces at the end. -/
def trimEnd (pieces : List (List Char)) : List (List Char) :=
  (pieces.reverse.dropWhile isIdle).reverse

/-- A path cut up: what it starts with, and the pieces after that. -/
structure Cut where
  /-- `/` for an absolute path, `.` for one that starts with that piece, else empty. -/
  start : List Char
  pieces : List (List Char)

/-- A path cut up. -/
def cutUp (p : Path) : Cut :=
  match p.chars with
  | '/' :: rest => ⟨['/'], cut rest⟩
  | ['.'] => ⟨['.'], []⟩
  | '.' :: '/' :: rest => ⟨['.'], [] :: cut rest⟩
  | cs => ⟨[], cut cs⟩

namespace Cut

/-- The text of a path that was cut up. -/
def join (c : Cut) : Path := ⟨c.start ++ paste c.pieces⟩

end Cut

/-! ## Components -/

/-- What a step of a path names. -/
inductive Component
  | root
  /-- The directory the path starts from, said by a leading `.`. -/
  | here
  | up
  | name (text : List Char)
  deriving DecidableEq, Repr

/-- The component of a piece that is not idle. -/
def component (piece : List Char) : Component :=
  if piece = ['.', '.'] then .up else .name piece

/-- The components of a path. -/
def components (p : Path) : List Component :=
  let c := p.cutUp
  (if c.start = ['/'] then [.root] else if c.start = ['.'] then [.here] else [])
    ++ (c.pieces.filter fun piece => !isIdle piece).map component

/-- Whether the path starts at the root. -/
def isAbsolute (p : Path) : Bool := p.chars.head? = some '/'

/-! ## Operations -/

/-- The path `q` taken from `p`. An absolute path stands for itself; otherwise a slash is put
between the two unless `p` is empty or ends with one. -/
def join (p q : Path) : Path :=
  if q.isAbsolute then q
  else match p.chars.getLast? with
    | none => q
    | some '/' => ⟨p.chars ++ q.chars⟩
    | some _ => ⟨p.chars ++ '/' :: q.chars⟩

/-- The last component, if it is a name. -/
def fileName? (p : Path) : Option (List Char) :=
  match p.components.getLast? with
  | some (.name n) => some n
  | _ => none

/-- A name up to its last dot, the whole name if there is no dot after its first character. -/
def stem (name : List Char) : List Char :=
  match (name.reverse.dropWhile (· ≠ '.')).drop 1 with
  | [] => name
  | rest => rest.reverse

/-- The path without its last component. -/
def parent? (p : Path) : Option Path :=
  let c := p.cutUp
  match trimEnd c.pieces with
  | [] => if c.start = ['.'] then some ⟨[]⟩ else none
  | pieces => some (Cut.join ⟨c.start, trimEnd pieces.dropLast⟩)

/-- Take components off the start of pieces. -/
def dropComponents : List Component → List (List Char) → Option (List (List Char))
  | [], pieces => some pieces
  | c :: cs, pieces =>
    match pieces.dropWhile isIdle with
    | [] => none
    | piece :: rest => if component piece = c then dropComponents cs rest else none

/-- What is left of a path after the components of a base are taken off its start. -/
def relativeTo? (p base : Path) : Option Path :=
  let c := p.cutUp
  let left (pieces : List (List Char)) : Path := ⟨paste (trimEnd (pieces.dropWhile isIdle))⟩
  match base.components with
  | [] => some (Cut.join ⟨c.start, trimEnd c.pieces⟩)
  | .root :: cs => if c.start = ['/'] then (dropComponents cs c.pieces).map left else none
  | .here :: cs => if c.start = ['.'] then (dropComponents cs c.pieces).map left else none
  | cs => if c.start = [] then (dropComponents cs c.pieces).map left else none

/-- The names that are left of components when each `..` takes away the name before it. -/
def settle (cs : List Component) : List (List Char) :=
  let step (names : List (List Char)) : Component → List (List Char)
    | .name n => n :: names
    | .up => names.tail
    | _ => names
  (cs.foldl step []).reverse

/-- A path taken from an absolute one, without idle pieces and `..`, decided on the text alone. -/
def settledFrom (home p : Path) : Path := ⟨'/' :: paste (settle (home.join p).components)⟩

end Path
end SliceRecovery
