import SliceRecovery.Form.Profile
import SliceRecovery.Form.Project
import SliceRecovery.Hash.Sha256
import SliceRecovery.History.Recorded
import SliceRecovery.Project.Failure
import SliceRecovery.Project.Layout

/-!
# SliceRecovery.Project.Setup -- making and opening projects, and what runs are given

Opening a project reads its settings and brings its run history up to date. Making one writes the
settings and opens it; settings that exist are only replaced when that is forced, and a run history
that exists is kept in any case.
-/

namespace SliceRecovery

/-- An open project. -/
structure Project where
  layout : Layout
  config : ProjectConfig
  storeFile : Path
  store : Store

namespace Project

variable {m : Type → Type} [Monad m] [Storage m]

/-- Read the settings. -/
def readConfig (l : Layout) : Task m ProjectConfig := do
  let text ← Task.check [s!"Failed to read project config at {l.configFile}"] .file
    (Storage.readText l.configFile)
  Task.ofExcept ["Failed to parse project config JSON"] .json
    (Json.Decode.document ProjectConfig.decoder text)

/-- Open a run history and bring it up to date. What was changed until a failure is kept. -/
def openStore (p : Path) : Task m Store := do
  let contexts := [s!"Failed to open project database at {p}"]
  let opened ← Task.check contexts .store (Storage.openStore p)
  let (refusal, store) := opened.migrate
  if store.version ≠ opened.version then Task.lift (Storage.saveStore p store)
  match refusal with
  | none => return store
  | some e => throw ⟨contexts, some (.store e)⟩

/-- Open a project. -/
def openAt (l : Layout) : Task m Project := do
  let config ← readConfig l
  let file := config.storeFile l.root
  return ⟨l, config, file, ← openStore file⟩

/-- Make a project. -/
def create (l : Layout) (config : ProjectConfig) (force : Bool) : Task m Unit := do
  if !force && (← Task.lift (Storage.kind? l.configFile)).isSome then
    throw (Failure.plain
      s!"Project already initialized at {l.configFile} (use --force to overwrite)")
  Task.check [s!"Failed to create metadata directory {l.metaDir}"] .file
    (Storage.makeDirs l.metaDir)
  Task.check [s!"Failed to create reports directory {l.reportsDir}"] .file
    (Storage.makeDirs l.reportsDir)
  Task.check [s!"Failed to write project config to {l.configFile}"] .file
    (Storage.writeText l.configFile config.toJson.indented)
  let _ ← openAt l

/-- Run, put on record and save the history. A run that stops at an overflow is not recorded. -/
def run (p : Project) (h : Analysis) (q : RunRequest) : Task m RecordedRun := do
  let startedAt ← Task.lift Storage.now
  if h.recoverOverflows q.mode q.config q.cancellation then throw ⟨[], some .overflow⟩
  let finishedAt ← Task.lift Storage.now
  let r := p.store.runRecorded h q startedAt finishedAt
  Task.lift (Storage.saveStore p.storeFile r.store)
  return r

end Project

/-! ## Inputs of runs -/

namespace Input

variable {m : Type → Type} [Monad m] [Storage m]

/-- Read the settings of a profile. -/
def profile (p : Path) : Task m RecoveryConfig := do
  let text ← Task.check [s!"Failed to read recovery profile {p}"] .file (Storage.readText p)
  match Profile.read? text with
  | some c => return c
  | none => throw ⟨[s!"Failed to parse recovery profile {p}"], some .profile⟩

/-- Set an analysis up from a snapshot. -/
def snapshot (p : Path) : Task m Analysis := do
  let contexts := [s!"Failed to load snapshot {p}"]
  let text ← Task.check contexts .view (Storage.readText p)
  Task.ofExcept contexts .load (Analysis.ofText text)

/-- The memory view of an object file. -/
def objectFile (p : Path) : Task m ObjectImage := do
  let contexts := [s!"Failed to load object file {p}"]
  let bytes ← Task.check contexts .view (Storage.read p)
  Task.ofExcept contexts .object (ObjectFile.load bytes)

/-- The digest of a binary. A directory can be opened, but not read. -/
def digest (p : Path) : Task m String := do
  match ← Task.lift (Storage.read p) with
  | .ok bytes => return Sha256.hex bytes
  | .error .isDirectory =>
    throw ⟨[s!"Failed to read binary for hashing: {p}"], some (.file .isDirectory)⟩
  | .error e => throw ⟨[s!"Failed to open binary for hashing: {p}"], some (.file e)⟩

end Input
end SliceRecovery
