import SliceRecovery.CommandLine
import SliceRecovery.Files.StorePath
import SliceRecovery.Form.Store
import SliceRecovery.Text.Moment
import Std.Time.DateTime.Timestamp

/-!
# SliceRecovery.Main -- the program

The files and the clock are those of the machine, and the arguments are those of the process.
-/

namespace SliceRecovery.Machine

/-- The fault behind an error of the machine. -/
def fault : IO.Error → FileFault
  | .noFileOrDirectory _ _ _ => .notFound
  | .alreadyExists _ _ _ => .alreadyExists
  | .inappropriateType _ code text =>
    if code = 20 then .notDirectory else if code = 21 then .isDirectory else .other text
  | e => .other (toString e)

/-- An action whose errors are faults. -/
def attempt {α : Type} (p : Path) (a : IO α) : IO (Except FileFault α) := do
  if p.chars.contains '\x00' then return .error .badName
  try
    return .ok (← a)
  catch e =>
    return .error (fault e)

def read (p : Path) : IO (Except FileFault (List UInt8)) :=
  attempt p do
    return (← IO.FS.readBinFile p.toString).toList

def write (p : Path) (bytes : List UInt8) : IO (Except FileFault Unit) :=
  attempt p (IO.FS.writeBinFile p.toString ⟨bytes.toArray⟩)

def canonical? (p : Path) : IO (Option Path) := do
  match ← attempt p (IO.FS.realPath p.toString) with
  | .ok q => return some (.ofString (toString q))
  | .error _ => return none

/-- What a path names; a directory is what cannot be read for being one. -/
def kind? (p : Path) : IO (Option EntryKind) := do
  match ← canonical? p with
  | none => return none
  | some _ =>
    match ← read p with
    | .error .isDirectory => return some .directory
    | _ => return some .file

def home : IO Path := do
  return .ofString (toString (← IO.currentDir))

/-- The store in a file. -/
def openFile (named p : Path) (mustExist : Bool) : IO (Except StoreError Store) := do
  match ← read p with
  | .ok bytes =>
    match Store.ofBytes? bytes with
    | some s => return .ok s
    | none => return .error .notAStore
  | .error .notFound =>
    -- Nothing is lost by writing a file that is missing, and a directory may be missing too.
    if mustExist then return .error (.cannotOpen named.toString)
    match ← write p [] with
    | .ok () => return .ok {}
    | .error _ => return .error (.cannotOpen named.toString)
  | .error _ => return .error (.cannotOpen named.toString)

def openStore (p : Path) : IO (Except StoreError Store) := do
  match StorePath.read p with
  | .error e => return .error e
  | .ok .temporary => return .ok {}
  | .ok (.file q mustExist) => openFile p ((← home).settledFrom q) mustExist

def saveStore (p : Path) (s : Store) : IO Unit := do
  if let .ok (.file q _) := StorePath.read p then
    let _ ← write ((← home).settledFrom q) s.toBytes

instance : Storage IO where
  read := read
  write := write
  makeDir p := attempt p (IO.FS.createDir p.toString)
  kind? := kind?
  canonical? := canonical?
  home := home
  openStore := openStore
  saveStore := saveStore
  now := do
    let t ← Std.Time.Timestamp.now
    let seconds := t.toSecondsSinceUnixEpoch.toInt.toNat
    let nanos := t.toNanosecondsSinceUnixEpoch.toInt.toNat
    return Text.Moment.write seconds (nanos % 1000000000)

end SliceRecovery.Machine

def main (args : List String) : IO UInt32 := do
  let o ← SliceRecovery.CommandLine.run (m := IO) args
  (← IO.getStdout).putStr o.output
  (← IO.getStderr).putStr o.errors
  return UInt32.ofNat o.exitCode
