import SliceRecovery.Files.Storage
import SliceRecovery.Form.Store

/-!
# SliceRecovery.Files.Tree -- a tree of files

A tree says what stands at every place, a place being the names on the way from the root. Walking
a path goes through the tree name by name, so that `..` leads to the directory that was entered,
and only directories can be walked through; a slash at the end therefore asks for a directory.
-/

namespace SliceRecovery

/-- The names on the way from the root. -/
abbrev Place := List (List Char)

/-- What may stand at a place. -/
inductive Entry
  | directory
  | file (bytes : List UInt8)
  | store (s : Store)

namespace Entry

def kind : Entry → EntryKind
  | directory => .directory
  | file _ | store _ => .file

/-- What reading finds. -/
def content : Entry → Except FileFault (List UInt8)
  | directory => .error .isDirectory
  | file bytes => .ok bytes
  | store s => .ok s.toBytes

end Entry

/-- A tree of files with a working directory and the time on its clock. -/
structure FileTree where
  entry : Place → Option Entry
  home : Place
  clock : String

/-- Where a path leads. -/
inductive Spot
  | found (p : Place) (e : Entry)
  /-- Only the last name is missing; `slash` says whether a slash follows it. -/
  | vacant (p : Place) (slash : Bool)

namespace Place

/-- The absolute path of a place. -/
def path (p : Place) : Path := ⟨'/' :: Path.paste p⟩

end Place

namespace FileTree

/-- What stands at a place. The root is always a directory. -/
def get? (t : FileTree) (p : Place) : Option Entry :=
  if p = [] then some .directory else t.entry p

/-- Put an entry at a place. -/
def put (t : FileTree) (p : Place) (e : Entry) : FileTree :=
  { t with entry := fun q => if q = p then some e else t.entry q }

/-- Remove what stands at a place and below it. -/
def prune (t : FileTree) (p : Place) : FileTree :=
  { t with entry := fun q => if p.isPrefixOf q then none else t.entry q }

theorem get?_put {t : FileTree} {p q : Place} {e : Entry} (hp : p ≠ []) :
    (t.put p e).get? q = if q = p then some e else t.get? q := by
  unfold get? put
  by_cases hq : q = []
  · subst hq
    simp [Ne.symm hp]
  · simp [hq]

/-- Walk along pieces of a path from a place. -/
def walk (t : FileTree) : Place → List (List Char) → Except FileFault Spot
  | here, [] =>
    match t.get? here with
    | some e => .ok (.found here e)
    | none => .error .notFound
  | here, piece :: rest =>
    match t.get? here with
    | some .directory =>
      if Path.isIdle piece then walk t here rest
      else if piece = ['.', '.'] then walk t here.dropLast rest
      else if 255 < (Text.Utf8.bytes (String.ofList piece)).length then .error .nameTooLong
      else
        let next := here ++ [piece]
        match t.get? next with
        | some _ => walk t next rest
        | none =>
          if rest = [] then .ok (.vacant next false)
          else if rest.all List.isEmpty then .ok (.vacant next true)
          else .error .notFound
    | some _ => .error .notDirectory
    | none => .error .notFound

/-- Where a path leads. A path is shorter than 4096 bytes. -/
def locate (t : FileTree) (p : Path) : Except FileFault Spot :=
  if p.chars = [] then .error .notFound
  else if p.chars.contains '\x00' then .error .badName
  else if 4096 ≤ (Text.Utf8.bytes p.toString).length then .error .nameTooLong
  else t.walk (if p.isAbsolute then [] else t.home) (Path.cut p.chars)

/-- What a path names. -/
def find? (t : FileTree) (p : Path) : Option (Place × Entry) :=
  match t.locate p with
  | .ok (.found q e) => some (q, e)
  | _ => none

/-! ## Operations -/

def read (t : FileTree) (p : Path) : Except FileFault (List UInt8) :=
  match t.locate p with
  | .ok (.found _ e) => e.content
  | .ok (.vacant _ _) => .error .notFound
  | .error e => .error e

def write (t : FileTree) (p : Path) (bytes : List UInt8) : Except FileFault FileTree :=
  match t.locate p with
  | .ok (.found _ .directory) | .ok (.vacant _ true) => .error .isDirectory
  | .ok (.found q _) | .ok (.vacant q false) => .ok (t.put q (.file bytes))
  | .error e => .error e

def makeDir (t : FileTree) (p : Path) : Except FileFault FileTree :=
  match t.locate p with
  | .ok (.found _ _) => .error .alreadyExists
  | .ok (.vacant q _) => .ok (t.put q .directory)
  | .error e => .error e

/-- Remove what a path names. -/
def remove (t : FileTree) (p : Path) : Except FileFault FileTree :=
  match t.locate p with
  | .ok (.found q _) => .ok (t.prune q)
  | .ok (.vacant _ _) => .error .notFound
  | .error e => .error e

end FileTree
end SliceRecovery
