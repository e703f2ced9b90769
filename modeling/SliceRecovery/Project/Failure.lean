import SliceRecovery.Files.Storage
import SliceRecovery.Form.Snapshot
import SliceRecovery.ObjectFile.Load
import SliceRecovery.Recovery.Overflow

/-!
# SliceRecovery.Project.Failure -- why a command failed

A failure says what was being done, in a sentence or several from the outside in, and what came in
between. A cause may have causes of its own; a report lists them all, while the message stops at
the first. An overflow has no causes and no sentence: it ends the program wherever it is met.
-/

namespace SliceRecovery

/-- What came in between. -/
inductive Cause
  | file (e : FileFault)
  | json (f : Json.Fault)
  | profile
  | store (e : StoreError)
  /-- A file that an analysis was to be set up from could not be read. -/
  | view (e : FileFault)
  | load (e : LoadError)
  | object (e : ObjectFile.LoadFault)
  | recovery (e : RecoveryError)
  | overflow
  deriving DecidableEq, Repr

namespace StoreError

/-- What lies behind an error of the store, from the outside in. -/
def chain (e : StoreError) : List String :=
  let behind : Option String :=
    match e with
    | unsupportedVersion _ => none
    | badMode m => some (RecoveryMode.refusal m)
    | badStatus s => some (RecordStatus.refusal s)
    | cannotOpen _ | cannotPrepare => some "Error code 14: Unable to open the database file"
    | diskFault .reading => some "Error code 266: Error reading from disk"
    | diskFault .deleting => some "Error code 2570: I/O error within xDelete of a VFS object"
    | zeroAt _ => some e.message
    | notAStore => some "Error code 26: File opened that is not a database file"
    | unknownRun => some "Error code 787: Foreign key constraint failed"
    | _ => some "Error code 1: SQL error or missing database"
  match behind with
  | none => [e.message]
  | some text => ["SQLite error: " ++ e.message, e.message, text]

end StoreError

namespace Cause

/-- The sentences of a cause and of what lies behind it. -/
def chain : Cause → List String
  | file e => [e.message]
  | json f => ["<" ++ f.label ++ ">"]
  | profile => []
  | store e => e.chain
  | view e => ["I/O error: " ++ e.message, e.message]
  | load (.json f) => [(LoadError.json f).message, "<" ++ f.label ++ ">"]
  | load e => [e.message]
  | object e => [e.message]
  | recovery (.analysis e) => [(RecoveryError.analysis e).message, e.message]
  | recovery e => [e.message]
  | overflow => []

/-- The sentence of a cause, if it has one. -/
def message? : Cause → Option String
  | store e => some e.message
  | c => c.chain.head?

end Cause

/-- What was being done, from the outside in, and what came in between. -/
structure Failure where
  contexts : List String
  cause : Option Cause
  deriving DecidableEq, Repr

namespace Failure

/-- A failure that is its own cause. -/
def plain (text : String) : Failure := ⟨[text], none⟩

/-- The failure in one line. -/
def message (f : Failure) : String :=
  ": ".intercalate (f.contexts ++ (f.cause.bind Cause.message?).toList)

/-- A sentence of a report after its number, its further lines indented like the first. -/
def indent (number : Option Nat) (text : String) : String :=
  let (lead, gap) : String × String :=
    match number with
    | none => ("    ", "    ")
    | some n => (s!"    {n}: ", "       ")
  lead ++ String.ofList (text.toList.flatMap fun c => if c = '\n' then c :: gap.toList else [c])

/-- The failure with all of its causes, the way it is reported at the end of a program. -/
def report (f : Failure) : String :=
  match f.contexts ++ (f.cause.map Cause.chain).getD [] with
  | [] => "Error: \n"
  | [only] => "Error: " ++ only ++ "\n"
  | [outer, cause] => "Error: " ++ outer ++ "\n\nCaused by:\n" ++ indent none cause ++ "\n"
  | outer :: causes =>
    "Error: " ++ outer ++ "\n\nCaused by:\n"
      ++ String.join (causes.mapIdx fun i c => indent (some i) c ++ "\n")

end Failure

/-- An effect that may fail. -/
abbrev Task (m : Type → Type) := ExceptT Failure m

namespace Task

variable {m : Type → Type} [Monad m] {ε α : Type}

/-- An effect that does not fail. -/
def lift (a : m α) : Task m α := ExceptT.lift a

/-- Go on with a result, or fail with a cause. -/
def ofExcept (contexts : List String) (cause : ε → Cause) : Except ε α → Task m α
  | .ok a => pure a
  | .error e => throw ⟨contexts, some (cause e)⟩

/-- Go on with the result of an effect, or fail with a cause. -/
def check (contexts : List String) (cause : ε → Cause) (a : m (Except ε α)) : Task m α := do
  ofExcept contexts cause (← lift a)

end Task
end SliceRecovery
