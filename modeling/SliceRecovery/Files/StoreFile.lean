import SliceRecovery.Files.StorePath
import SliceRecovery.Files.Tree

/-!
# SliceRecovery.Files.StoreFile -- stores in a tree of files

The place of a store's file follows from the text of its path alone: `..` takes away the name before
it, wherever that would lead. Beside the file two others may stand, which changes are prepared in:
the *journal* and the *log*. Those that an earlier program left behind are taken up when the store
is opened and are gone afterwards; a directory in the place of one cannot be taken up.
-/

namespace SliceRecovery.FileTree

/-! ## Places of stores -/

/-- Number of bytes of the path of a place. -/
def pathSize (p : Place) : Nat := (Text.Utf8.bytes (Place.path p).toString).length

/-- The longest path on the way to a store. -/
def stepLimit : Nat := 511

/-- The longest path of a store. Eight bytes are left for the names of other files. -/
def storeLimit : Nat := 504

/-- Take a step on the way to a store. A name may be missing, but not stand below a file. -/
def step? (t : FileTree) (here : Place) (piece : List Char) : Option Place :=
  if Path.isIdle piece then some here
  else if piece = ['.', '.'] then some here.dropLast
  else
    let next := here ++ [piece]
    if stepLimit < pathSize next then none
    else match t.locate (Place.path next) with
      | .error .notDirectory | .error .nameTooLong => none
      | _ => some next

/-- The place of the store that a path leads to. -/
def storePlace? (t : FileTree) (p : Path) : Option Place := do
  let q ← (Path.cut p.chars).foldlM t.step? (if p.isAbsolute then [] else t.home)
  if storeLimit < pathSize q then none else some q

/-! ## Files beside a store -/

/-- The place beside another whose name has a longer ending. -/
def beside (p : Place) (ending : String) : Place :=
  p.dropLast ++ [(p.getLast?.getD []) ++ ending.toList]

def journal (p : Place) : Place := beside p "-journal"

def log (p : Place) : Place := beside p "-wal"

/-- Whether no file can have the name of a place. -/
def isUnnameable (p : Place) : Bool :=
  255 < (Text.Utf8.bytes (String.ofList (p.getLast?.getD []))).length

/-- Take up the journal beside a store. For an empty store it holds nothing that counts; otherwise
one that starts with a zero byte was not finished and stays. -/
def takeJournal (t : FileTree) (p : Place) (isEmpty : Bool) : Except StoreError FileTree :=
  match t.get? (journal p) with
  | some .directory => if isEmpty then .ok t else .error (.diskFault .reading)
  | some (.file (b :: _)) => .ok (if isEmpty || b ≠ 0 then t.prune (journal p) else t)
  | _ => .ok t

/-- Take up the log beside a store. -/
def takeLog (t : FileTree) (p : Place) (isEmpty : Bool) : Except StoreError FileTree :=
  match t.get? (log p) with
  | some .directory => .error (if isEmpty then .diskFault .deleting else .cannotPrepare)
  | some (.file (_ :: _)) => .ok (t.prune (log p))
  | _ => .ok t

/-- Whether changes of a store can be prepared: a file can be made in the place of the journal. -/
def canPrepare (t : FileTree) (p : Place) : Bool :=
  !isUnnameable (journal p) && !(t.get? (journal p) matches some .directory)

/-! ## Opening and saving -/

/-- What a file holds as a store: nothing if it has at most one byte. -/
def Entry.store? : Entry → Option Store
  | .store s => some s
  | .file (_ :: _ :: _) | .directory => none
  | .file _ => some {}

/-- The store in the file at a place. An empty store has to be changed to be used. -/
def openAt (t : FileTree) (p : Place) (e : Entry) : Except StoreError (Store × FileTree) := do
  let isEmpty := match e with
    | .file bytes => bytes.length ≤ 1
    | _ => false
  let t ← t.takeJournal p isEmpty
  let t ← t.takeLog p isEmpty
  match Entry.store? e with
  | none => .error .notAStore
  | some s => if isEmpty && !t.canPrepare p then .error .cannotPrepare else .ok (s, t)

/-- The store that a path names, and the tree after it was opened. A file that is missing is made
before anything else can fail. -/
def openStore (t : FileTree) (p : Path) : Except StoreError Store × FileTree :=
  let opened (t : FileTree) (q : Place) (e : Entry) : Except StoreError Store × FileTree :=
    match t.openAt q e with
    | .ok (s, t) => (.ok s, t)
    | .error e => (.error e, t)
  let refused : Except StoreError Store × FileTree := (.error (.cannotOpen p.toString), t)
  match StorePath.read p with
  | .error e => (.error e, t)
  | .ok .temporary => (.ok {}, t)
  | .ok (.file p mustExist) =>
    match t.storePlace? p with
    | none => refused
    | some q =>
      match t.locate (Place.path q) with
      | .ok (.found _ .directory) => refused
      | .ok (.found _ e) => opened t q e
      | .ok (.vacant _ _) => if mustExist then refused else opened (t.put q (.file [])) q (.file [])
      | .error _ => refused

/-- Save the store that a path names. The journal of the change is removed in the end. -/
def saveStore (t : FileTree) (p : Path) (s : Store) : FileTree :=
  match StorePath.read p with
  | .ok (.file p _) =>
    match t.storePlace? p with
    | some q => (t.prune (journal q)).put q (.store s)
    | none => t
  | _ => t

end SliceRecovery.FileTree
