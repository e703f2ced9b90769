import SliceRecovery.Project.Report

/-!
# SliceRecovery.Project.Command -- the commands

A command either returns what it prints or fails without printing anything. Paths in its options
are taken from the root of the project, which itself is taken from the working directory.
-/

namespace SliceRecovery

/-- The options of a recovery run. -/
structure RecoverOptions where
  root : Path
  snapshot : String
  binary : Option String := none
  name : Option String := none
  profile : Option String := none
  maxLength : Option UInt64 := none
  output : Option String := none
  json : Bool := false
  deriving DecidableEq, Repr

inductive Command
  | initProject (root : Path) (name : Option String) (force : Bool)
  | projectInfo (root : Path) (json : Bool)
  | regions (binary : Path) (json : Bool)
  | recover (options : RecoverOptions)
  | listRuns (root : Path) (binary : Option String) (json : Bool)
  | showRun (root : Path) (id : Int) (json : Bool)
  deriving DecidableEq, Repr

namespace Command

variable {m : Type → Type} [Monad m] [Storage m]

/-- Make a project. -/
def runInit (root : Path) (name : Option String) (force : Bool) : Task m String := do
  let layout : Layout := ⟨← Task.lift (Storage.absolute root)⟩
  let config : ProjectConfig :=
    { name := name.getD (Layout.projectName layout.root)
      storePath := layout.storeFileFromRoot.toString }
  Project.create layout config force
  return Report.created layout config

/-- Open the project at a root. -/
def openProject (root : Path) : Task m Project := do
  Project.openAt ⟨← Task.lift (Storage.absolute root)⟩

/-- Describe a project. -/
def runInfo (root : Path) (json : Bool) : Task m String := do
  let p ← openProject root
  let runs ← Task.ofExcept [] .store (p.store.listRuns none)
  if json then return Report.json (Report.projectJson p runs)
  else
    let hasMeta ← Task.lift (Storage.isDirectory p.layout.metaDir)
    let hasReports ← Task.lift (Storage.isDirectory p.layout.reportsDir)
    return Report.project p runs hasMeta hasReports

/-- List the regions of an object file. -/
def runRegions (binary : Path) (json : Bool) : Task m String := do
  let image ← Input.objectFile binary
  return if json then Report.json (Report.regionsJson binary image)
    else Report.regions binary image

/-- Give an analysis without segments the memory view of its binary, and take the digest. -/
def withBinary (h : Analysis) (binary : Option Path) : Task m (Analysis × Option String) := do
  match binary with
  | none => return (h, none)
  | some p =>
    let h ← if h.segments.isEmpty then pure (h.withImage (← Input.objectFile p)) else pure h
    return (h, some (← Input.digest p))

/-- Write annotations to a file, making the directories above it. -/
def exportTo (p : Path) (a : Annotations) : Task m Unit := do
  match p.parent? with
  | none => pure ()
  | some above =>
    Task.check [s!"Failed to create {above}"] .file (Storage.makeDirs above)
  Task.check [s!"Failed to write annotations to {p}"] .file
    (Storage.writeText p a.toJson.indented)

/-- Recover slices from pointers to read-only data, and put the run on record. -/
def runRecover (o : RecoverOptions) : Task m String := do
  let p ← openProject o.root
  let place (s : String) : Path := p.layout.root.join (.ofString s)
  let profile ← o.profile.mapM fun s => Input.profile (place s)
  let config := RecoveryConfig.effective p.config.recovery profile o.maxLength
  let snapshot := place o.snapshot
  let h ← Input.snapshot snapshot
  let binary := o.binary.map place
  let (h, hash) ← withBinary h binary
  let name := o.name.getD (binaryName binary snapshot)
  let r ← p.run h { binary := name, binaryHash := hash, mode := .readOnlyData, config }
  let result ← Task.ofExcept [s!"Recovery failed for {name}"] .recovery r.outcome.result
  match o.output with
  | none => pure ()
  | some s => exportTo (place s) r.outcome.analysis.annotations
  return if o.json then Report.json result.toJson else Report.run name r.runId result

/-- List recorded runs. -/
def runList (root : Path) (binary : Option String) (json : Bool) : Task m String := do
  let p ← openProject root
  let runs ← Task.ofExcept [] .store (p.store.listRuns binary)
  return if json then Report.json (.list RunRecord.toJson runs) else Report.records runs

/-- Show a recorded run. -/
def runShow (root : Path) (id : Int) (json : Bool) : Task m String := do
  let p ← openProject root
  match ← Task.ofExcept [] .store (RunDetails.load p.store id) with
  | none => throw (Failure.plain s!"No recovery run with id {id}")
  | some d => return if json then Report.json d.toJson else Report.details id d

/-- Do what a command says. -/
def run : Command → Task m String
  | initProject root name force => runInit root name force
  | projectInfo root json => runInfo root json
  | regions binary json => runRegions binary json
  | recover o => runRecover o
  | listRuns root binary json => runList root binary json
  | showRun root id json => runShow root id json

end Command
end SliceRecovery
