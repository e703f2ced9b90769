import SliceRecovery.Files.Path
import SliceRecovery.History.Store
import SliceRecovery.Text.Utf8

/-!
# SliceRecovery.Files.Storage -- what commands need of files

Commands are written once for any effect that can read and write files and stores. The effect of a
program that runs is that of its machine; `Files/OnTree` has one without a machine, on which
statements about commands can be made.
-/

namespace SliceRecovery

/-- Why a file operation was refused. -/
inductive FileFault
  | notFound
  | alreadyExists
  | notDirectory
  | isDirectory
  | nameTooLong
  /-- A path holds the character zero. -/
  | badName
  /-- The content of a file that should be text is not. -/
  | notText
  /-- Anything else, in the words of the machine. -/
  | other (text : String)
  deriving DecidableEq, Repr

namespace FileFault

def message : FileFault → String
  | notFound => "No such file or directory (os error 2)"
  | alreadyExists => "File exists (os error 17)"
  | notDirectory => "Not a directory (os error 20)"
  | isDirectory => "Is a directory (os error 21)"
  | nameTooLong => "File name too long (os error 36)"
  | badName => "file name contained an unexpected NUL byte"
  | notText => "stream did not contain valid UTF-8"
  | other text => text

end FileFault

/-- What a path may name. -/
inductive EntryKind
  | directory
  | file
  deriving DecidableEq, Repr

/-- Effects with files, stores and a clock. -/
class Storage (m : Type → Type) where
  /-- The content of a file. -/
  read : Path → m (Except FileFault (List UInt8))
  /-- Give a file a content, making it if need be. -/
  write : Path → List UInt8 → m (Except FileFault Unit)
  /-- Make one directory. -/
  makeDir : Path → m (Except FileFault Unit)
  kind? : Path → m (Option EntryKind)
  /-- The absolute path of something that exists, without detours. -/
  canonical? : Path → m (Option Path)
  /-- The directory that relative paths start from. -/
  home : m Path
  /-- The store that a path names, as it is. A file that is missing is made and holds an empty
  store. -/
  openStore : Path → m (Except StoreError Store)
  saveStore : Path → Store → m Unit
  /-- The time, as it is recorded. -/
  now : m String

namespace Storage

variable {m : Type → Type} [Monad m] [Storage m]

/-- The content of a file as a text. -/
def readText (p : Path) : m (Except FileFault String) := do
  match ← read p with
  | .error e => return .error e
  | .ok bytes =>
    match Text.Utf8.read bytes with
    | .ok text => return .ok text
    | .error _ => return .error .notText

def writeText (p : Path) (text : String) : m (Except FileFault Unit) :=
  write p (Text.Utf8.bytes text)

def isDirectory (p : Path) : m Bool := return (← kind? p) = some .directory

/-- Make one directory, or find it there. -/
def ensureDir (p : Path) : m (Except FileFault Unit) := do
  match ← makeDir p with
  | .ok () => return .ok ()
  | .error e => if ← isDirectory p then return .ok () else return .error e

/-- Make a directory and, as far as they are missing, those above it; at most `levels` of them. -/
def ensureDirs : (levels : Nat) → Path → m (Except FileFault Unit)
  | 0, p => ensureDir p
  | levels + 1, p => do
    if p.chars = [] then return .ok ()
    match ← makeDir p with
    | .ok () => return .ok ()
    | .error .notFound =>
      match p.parent? with
      | none => return .error (.other "failed to create whole tree")
      | some above =>
        match ← ensureDirs levels above with
        | .error e => return .error e
        | .ok () => ensureDir p
    | .error e => if ← isDirectory p then return .ok () else return .error e

/-- Make a directory and those above it. -/
def makeDirs (p : Path) : m (Except FileFault Unit) := ensureDirs (p.components.length + 1) p

/-- The absolute form of the path of a project. One that does not exist is taken from the working
directory as it is. -/
def absolute (p : Path) : m Path := do
  if p.components = [.here] then home
  else
    match ← canonical? p with
    | some q => return q
    | none => return (← home).join p

end Storage
end SliceRecovery
