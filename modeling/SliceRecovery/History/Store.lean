import SliceRecovery.History.Record
import SliceRecovery.OrderedMap

/-!
# SliceRecovery.History.Store -- the run history of a project

A store holds a table of runs and three tables of details, any of which may be missing, and the
version of its schema. Runs are numbered in the order of their insertion and no number is given
twice. The details of a run are keyed by address; a second row for an address replaces the first,
and rows are listed by the address read as a signed number. Details may only be stored for runs
that exist, and either all rows of a result are stored or none.

A column of numbers holds 64 bits that it reads with a sign. A word goes in as the signed number
with its bits and comes back by them.

Opening a store brings its schema to the current version one step at a time, and each step is kept
when a later one fails or the upgrade is cut short:

* version 0: no tables; version 1: runs; version 2: details; version 3: a column of runs for the
  message of a failed run.
-/

namespace SliceRecovery

/-- A stored run. Mode and status are texts, as another release may have written them. -/
structure RunRow where
  id : Int
  binary : String
  mode : String
  binaryHash : Option String
  status : String
  accepted : Int64
  rejected : Int64
  error : Option String
  startedAt : String
  finishedAt : String
  deriving DecidableEq, Repr

/-- The table of runs. -/
structure RunTable where
  /-- Whether runs have a column for the message of a failure. -/
  hasError : Bool
  rows : List RunRow
  /-- The greatest number given so far. -/
  lastId : Nat

/-- A stored slice. Its bytes are those of the text. -/
structure SliceRow where
  pointerAddress : Int64
  dataAddress : Int64
  length : Int64
  text : String
  deriving DecidableEq, Repr

/-- A stored resized array. -/
structure ResizeRow where
  address : Int64
  codeAddress : Int64
  previousLength : Option Int64
  length : Int64
  deriving DecidableEq, Repr

/-- A stored rejection. -/
structure RejectionRow where
  address : Int64
  reason : String
  detail : String
  deriving DecidableEq, Repr

/-- Details by the number of their run and by signed address. -/
abbrev DetailTable (ρ : Type) := OrderedMap Int (OrderedMap Int ρ)

/-- The tables of a store. -/
inductive TableName
  | runs
  | slices
  | resized
  | rejections
  deriving DecidableEq, Repr

/-- The run history of a project. -/
structure Store where
  version : Int := 0
  runs : Option RunTable := none
  slices : Option (DetailTable SliceRow) := none
  resized : Option (DetailTable ResizeRow) := none
  rejections : Option (DetailTable RejectionRow) := none

/-- What a disk refused to do. -/
inductive DiskTask
  | reading
  | deleting
  deriving DecidableEq, Repr

/-- Why a store refused a request. -/
inductive StoreError
  | unsupportedVersion (found : Int)
  | noTable (name : String)
  /-- The table that details refer to is missing. -/
  | noRunsToReferTo
  | noErrorColumn
  | noErrorColumnToFill
  /-- The column for messages is to be added where it is. -/
  | errorColumnTwice
  | unknownRun
  | badMode (label : String)
  | badStatus (lower : String)
  | protectedTable (name : String)
  | cannotOpen (path : String)
  /-- A change cannot be prepared, because the file for it cannot be opened. -/
  | cannotPrepare
  | diskFault (task : DiskTask)
  /-- The path of the store holds the character zero after so many bytes. -/
  | zeroAt (position : Nat)
  /-- The address of the store makes no sense. -/
  | badAddress (text : String)
  | notAStore
  deriving DecidableEq, Repr

namespace TableName

def label : TableName → String
  | runs => "recovery_runs"
  | slices => "recovered_slices"
  | resized => "resized_arrays"
  | rejections => "rejections"

/-- The table with a name, in which the case of ASCII letters does not count. -/
def ofLabel? (s : String) : Option TableName :=
  [runs, slices, resized, rejections].find? fun t => t.label = s.toLower

end TableName

namespace Store

/-- The newest version of the schema. -/
def currentVersion : Int := 3

end Store

namespace StoreError

/-- What the store itself reports. -/
def message : StoreError → String
  | unsupportedVersion v =>
    s!"Unsupported schema version {v}; supported range is 0..={Store.currentVersion}"
  | noTable n => "no such table: " ++ n
  | noRunsToReferTo => "no such table: main." ++ TableName.runs.label
  | noErrorColumn => "no such column: error"
  | noErrorColumnToFill => "table " ++ TableName.runs.label ++ " has no column named error"
  | errorColumnTwice => "duplicate column name: error"
  | unknownRun => "FOREIGN KEY constraint failed"
  | badMode m => "Conversion error from type Text at index: 2, " ++ RecoveryMode.refusal m
  | badStatus s => "Conversion error from type Text at index: 4, " ++ RecordStatus.refusal s
  | protectedTable n => s!"table {n} may not be dropped"
  | cannotOpen p => "unable to open database file: " ++ p
  | cannotPrepare => "unable to open database file"
  | diskFault _ => "disk I/O error"
  | zeroAt n => s!"nul byte found in provided data at position: {n}"
  | badAddress text => text
  | notAStore => "file is not a database"

/-- Whether the fault lies in the version and not in a request. -/
def isVersion : StoreError → Bool
  | unsupportedVersion _ => true
  | _ => false

end StoreError

/-! ## Detail tables -/

namespace DetailTable

variable {ρ : Type}

/-- The rows of a run by signed address. -/
def ofRun (t : DetailTable ρ) (id : Int) : OrderedMap Int ρ := (t.get? id).getD OrderedMap.empty

/-- Store a row, replacing the one with its run and address. -/
def put (address : ρ → Int64) (id : Int) (t : DetailTable ρ) (row : ρ) : DetailTable ρ :=
  t.insert id ((ofRun t id).insert (address row).toInt row)

end DetailTable

namespace SliceRow

def ofRecord (r : SliceRecord) : SliceRow := ⟨r.pointerAddress, r.dataAddress, r.length, r.text⟩

def toRecord (r : SliceRow) : SliceRecord :=
  ⟨r.pointerAddress.toUInt64, r.dataAddress.toUInt64, r.length.toUInt64, Text.Utf8.bytes r.text,
    r.text⟩

end SliceRow

namespace ResizeRow

def ofRecord (r : ArrayResize) : ResizeRow :=
  ⟨r.address, r.codeAddress, r.previousLength.map UInt64.toInt64, r.length⟩

def toRecord (r : ResizeRow) : ArrayResize :=
  ⟨r.address.toUInt64, r.codeAddress.toUInt64, r.previousLength.map Int64.toUInt64,
    r.length.toUInt64⟩

end ResizeRow

namespace RejectionRow

def ofRecord (r : StoredRejection) : RejectionRow := ⟨r.address, r.reason, r.detail⟩

def toRecord (r : RejectionRow) : StoredRejection := ⟨r.address.toUInt64, r.reason, r.detail⟩

end RejectionRow

/-! ## Runs -/

namespace RunRow

/-- The row of a record under a number. -/
def ofRecord (id : Int) (r : RunRecord) : RunRow :=
  ⟨id, r.binary, r.mode.label, r.binaryHash, r.status.label, r.accepted, r.rejected, r.error,
    r.startedAt, r.finishedAt⟩

/-- The record in a row. The mode is looked at before the status. -/
def toRecord (r : RunRow) : Except StoreError RunRecord :=
  match RecoveryMode.ofLabel? r.mode with
  | none => .error (.badMode r.mode)
  | some mode =>
    match RecordStatus.read r.status with
    | .error s => .error (.badStatus s)
    | .ok status =>
      .ok ⟨some r.id, r.binary, mode, r.binaryHash, status, r.accepted.toUInt64,
        r.rejected.toUInt64, r.error, r.startedAt, r.finishedAt⟩

end RunRow

namespace RunTable

/-- A table without runs. -/
def empty : RunTable := ⟨false, [], 0⟩

/-- Add the row that a number makes. -/
def add (t : RunTable) (row : Int → RunRow) : Int × RunTable :=
  let id := t.lastId + 1
  (id, { t with rows := t.rows ++ [row id], lastId := id })

/-- The table with a column for messages, which is empty in the rows that are there. -/
def withErrorColumn (t : RunTable) : RunTable :=
  { t with hasError := true, rows := t.rows.map fun r => { r with error := none } }

/-- Whether a run has a number. -/
def hasRun (t : RunTable) (id : Int) : Bool := t.rows.any fun r => r.id == id

end RunTable

namespace Store

/-- The table of runs for reading whole records. -/
def readableRuns (s : Store) : Except StoreError RunTable :=
  match s.runs with
  | none => .error (.noTable TableName.runs.label)
  | some t => if t.hasError then .ok t else .error .noErrorColumn

/-- Store a record; its own number is of no account. -/
def insertRun (s : Store) (r : RunRecord) : Except StoreError (Int × Store) :=
  match s.runs with
  | none => .error (.noTable TableName.runs.label)
  | some t =>
    if t.hasError then
      let (id, t) := t.add fun id => .ofRecord id r
      .ok (id, { s with runs := some t })
    else .error .noErrorColumnToFill

/-- Store a row without a message, as it is. -/
def insertRow (s : Store) (row : Int → RunRow) : Except StoreError (Int × Store) :=
  match s.runs with
  | none => .error (.noTable TableName.runs.label)
  | some t =>
    let (id, t) := t.add row
    .ok (id, { s with runs := some t })

/-- All runs, or those of one binary, in the order of their numbers. -/
def listRuns (s : Store) (binary : Option String) : Except StoreError (List RunRecord) := do
  let t ← s.readableRuns
  let rows :=
    match binary with
    | none => t.rows
    | some b => t.rows.filter fun r => r.binary = b
  rows.mapM RunRow.toRecord

/-- The run with a number. -/
def run? (s : Store) (id : Int) : Except StoreError (Option RunRecord) := do
  let t ← s.readableRuns
  match t.rows.find? fun r => r.id = id with
  | none => return none
  | some r => return some (← r.toRecord)

/-- The number of the last run of a binary in a mode. -/
def latestRun (s : Store) (binary : String) (mode : RecoveryMode) :
    Except StoreError (Option Int) :=
  match s.runs with
  | none => .error (.noTable TableName.runs.label)
  | some t =>
    .ok ((t.rows.reverse.find? fun r => r.binary = binary && r.mode = mode.label).map RunRow.id)

/-! ## Details -/

/-- Store rows of one table for a run that has to exist if there are any. -/
def putAll {ρ : Type} (s : Store) (name : TableName) (address : ρ → Int64) (id : Int)
    (table : Option (DetailTable ρ)) (rows : List ρ) : Except StoreError (DetailTable ρ) :=
  match table, s.runs with
  | none, _ => .error (.noTable name.label)
  | some _, none => .error .noRunsToReferTo
  | some t, some runs =>
    if rows.isEmpty || runs.hasRun id then .ok (rows.foldl (DetailTable.put address id) t)
    else .error .unknownRun

/-- Store the details of a result. -/
def insertResult (s : Store) (id : Int) (r : RunResult) : Except StoreError Store := do
  let slices ← s.putAll .slices SliceRow.pointerAddress id s.slices (r.slices.map SliceRow.ofRecord)
  let resized ← s.putAll .resized ResizeRow.address id s.resized (r.resized.map ResizeRow.ofRecord)
  let rejections ← s.putAll .rejections RejectionRow.address id s.rejections
    (r.rejections.map fun x => RejectionRow.ofRecord x.stored)
  return { s with slices := some slices, resized := some resized, rejections := some rejections }

/-- The rows of a run in one table. -/
def details {ρ : Type} (name : TableName) (id : Int) (table : Option (DetailTable ρ)) :
    Except StoreError (List ρ) :=
  match table with
  | none => .error (.noTable name.label)
  | some t => .ok (DetailTable.ofRun t id).values

/-- The slices of a run. -/
def slicesOf (s : Store) (id : Int) : Except StoreError (List SliceRecord) :=
  (details .slices id s.slices).map (·.map SliceRow.toRecord)

/-- The resized arrays of a run. -/
def resizedOf (s : Store) (id : Int) : Except StoreError (List ArrayResize) :=
  (details .resized id s.resized).map (·.map ResizeRow.toRecord)

/-- The rejections of a run. -/
def rejectionsOf (s : Store) (id : Int) : Except StoreError (List StoredRejection) :=
  (details .rejections id s.rejections).map (·.map RejectionRow.toRecord)

/-! ## Schema -/

/-- The store under another version. A version is kept in 32 bits; one that does not fit counts as
zero. -/
def withVersion (s : Store) (version : Int) : Store :=
  { s with version := if -2147483648 ≤ version ∧ version < 2147483648 then version else 0 }

/-- Remove a table. With the table of runs all details go. -/
def dropTable (s : Store) (label : String) : Except StoreError Store :=
  match TableName.ofLabel? label with
  | some .runs =>
    if s.runs.isNone then .error (.noTable label)
    else .ok { s with
      runs := none
      slices := s.slices.map fun _ => OrderedMap.empty
      resized := s.resized.map fun _ => OrderedMap.empty
      rejections := s.rejections.map fun _ => OrderedMap.empty }
  | some .slices =>
    if s.slices.isNone then .error (.noTable label) else .ok { s with slices := none }
  | some .resized =>
    if s.resized.isNone then .error (.noTable label) else .ok { s with resized := none }
  | some .rejections =>
    if s.rejections.isNone then .error (.noTable label) else .ok { s with rejections := none }
  | none =>
    if label = "sqlite_sequence" ∧ s.runs.isSome then .error (.protectedTable label)
    else .error (.noTable label)

/-- From version 0 to 1: the table of runs. -/
def createRuns (s : Store) : Store :=
  { s with runs := some (s.runs.getD .empty), version := 1 }

/-- To version 2: the tables of details. -/
def createDetails (s : Store) : Store :=
  { s with
    slices := some (s.slices.getD OrderedMap.empty)
    resized := some (s.resized.getD OrderedMap.empty)
    rejections := some (s.rejections.getD OrderedMap.empty)
    version := 2 }

/-- Whether there is a column for messages. A table that is missing has no columns. -/
def hasErrorColumn (s : Store) : Bool := s.runs.any RunTable.hasError

/-- Add the column for messages. No table has two columns of one name. -/
def addErrorColumn (s : Store) : Except StoreError Store :=
  match s.runs with
  | none => .error (.noTable TableName.runs.label)
  | some t =>
    if t.hasError then .error .errorColumnTwice
    else .ok { s with runs := some t.withErrorColumn }

end Store

/-- The steps of an upgrade. -/
inductive UpgradeStep
  | runs
  | details
  | errorColumn
  | version
  deriving DecidableEq, Repr

namespace UpgradeStep

/-- All steps, in order. -/
def all : List UpgradeStep := [runs, details, errorColumn, version]

/-- Take a step if the version calls for it. The column is added in front of the step that sets the
version, so it is looked for first: an upgrade may have been cut short between the two. -/
def take (s : Store) : UpgradeStep → Except StoreError Store
  | runs => .ok (if s.version = 0 then s.createRuns else s)
  | details => .ok (if s.version < 2 then s.createDetails else s)
  | errorColumn =>
    if s.version < Store.currentVersion && !s.hasErrorColumn then s.addErrorColumn else .ok s
  | version =>
    .ok (if s.version < Store.currentVersion then { s with version := Store.currentVersion } else s)

end UpgradeStep

namespace Store

/-- Take steps one after the other, up to the first that fails. Each step is kept when a later one
fails, so the store is returned in any case. -/
def upgrade : List UpgradeStep → Store → Option StoreError × Store
  | [], s => (none, s)
  | step :: steps, s =>
    match step.take s with
    | .ok s => s.upgrade steps
    | .error e => (some e, s)

/-- Bring the schema to the current version. -/
def migrate (s : Store) : Option StoreError × Store :=
  if currentVersion < s.version then (some (.unsupportedVersion s.version), s)
  else s.upgrade UpgradeStep.all

end Store
end SliceRecovery
