import SliceRecovery.Form.History
import SliceRecovery.Project.Setup
import SliceRecovery.Text.Quoted

/-!
# SliceRecovery.Project.Report -- what commands print

Every report is a text of whole lines. The JSON forms are those of the records they show, written
with a line for every item.
-/

namespace SliceRecovery

namespace Report

/-- Lines, each with its break. -/
def lines (ls : List String) : String := String.join (ls.map (· ++ "\n"))

/-- A JSON value on lines of its own. -/
def json (v : Json) : String := v.indented ++ "\n"

/-- A text filled up with blanks on the right. -/
def padRight (width : Nat) (s : String) : String :=
  s ++ String.ofList (List.replicate (width - s.length) ' ')

/-! ## Projects -/

/-- A project that was just made. -/
def created (l : Layout) (c : ProjectConfig) : String :=
  lines [
    "Initialized string-slicer project:",
    s!"  Name: {c.name}",
    s!"  Root: {l.root}",
    s!"  Config: {l.configFile}",
    s!"  DB path (relative): {c.storePath}",
    s!"  Reports dir: {l.reportsDir}"]

/-- Whether a directory is there. -/
def directory (label : String) (p : Path) (isThere : Bool) : String :=
  let word := if isThere then "OK" else "MISSING"
  s!"- {label}: {word} ({p})"

/-- A project, its run history, and whether its two directories are there. -/
def project (p : Project) (runs : List RunRecord) (hasMeta hasReports : Bool) : String :=
  let c := p.config
  lines (
    ["string-slicer Project Info", "==========================", s!"Name: {c.name}"]
    ++ (c.description.map fun d => s!"Description: {d}").toList
    ++ [s!"Root: {p.layout.root}",
      s!"Config file: {p.layout.configFile}",
      s!"Config version: {c.configVersion}",
      s!"DB path (config): {c.storePath}",
      s!"Schema version: {p.store.version}",
      "",
      "Recovery defaults:",
      "- Max length: " ++ Text.Hex.word c.recovery.maxLength,
      s!"- Slice type: {c.recovery.sliceTypeName}",
      s!"- Name prefix: {c.recovery.displayLead}",
      s!"- Request re-analysis: {c.recovery.requestPass}",
      "",
      "Directories:",
      directory "Meta dir (.slicer)" p.layout.metaDir hasMeta,
      directory "Reports dir" p.layout.reportsDir hasReports,
      "",
      s!"Recovery runs: {runs.length}"])

def projectJson (p : Project) (runs : List RunRecord) : Json :=
  let path (q : Path) : Json := .str q.toString
  .obj [("name", .str p.config.name), ("description", .nullable .str p.config.description),
    ("root", path p.layout.root), ("config_file", path p.layout.configFile),
    ("config_version", .str p.config.configVersion), ("db_path", .str p.config.storePath),
    ("schema_version", .int p.store.version), ("recovery", p.config.recovery.toJson),
    ("layout", .obj [("meta_dir", path p.layout.metaDir),
      ("reports_dir", path p.layout.reportsDir)]),
    ("recovery_runs", .list RunRecord.toJson runs)]

/-! ## Object files -/

/-- Whether recovery looks at a region. -/
def isReadOnly (r : Region) : Bool :=
  match r.kind with
  | .segment => r.isReadOnlySegment
  | .sectionEntry => r.isReadOnlyData

def orderTitle : ByteOrder → String
  | .little => "Little"
  | .big => "Big"

def region (r : Region) : String :=
  let letter (b : Bool) (c : String) : String := if b then c else "-"
  let access := letter r.readable "r" ++ letter r.writable "w" ++ letter r.executable "x"
  let range := Text.Hex.wideWord r.start ++ "-" ++ Text.Hex.wideWord r.stop
  let kind := padRight 7 r.kind.label
  let name := padRight 16 (r.name.getD "")
  let note := if isReadOnly r then "read-only" else ""
  s!"- {kind} {range} {access} {name} {note}"

/-- The regions of an object file. -/
def regions (binary : Path) (i : ObjectImage) : String :=
  let arch :=
    match i.arch with
    | none => "(unknown)"
    | some a => s!"{a.name} ({a.addressSize}-byte addresses, {orderTitle a.byteOrder} endian)"
  lines (
    [s!"Binary: {binary}", s!"Arch: {arch}",
      s!"Segments: {i.segments.length}, sections: {i.sections.length}"]
    ++ i.regions.map region)

def regionsJson (binary : Path) (i : ObjectImage) : Json :=
  let row (r : Region) : Json := .obj (r.toMembers ++ [("read_only", .bool (isReadOnly r))])
  .obj [("binary", .str binary.toString), ("arch", .nullable Architecture.toJson i.arch),
    ("regions", .list row i.regions)]

/-! ## Runs -/

def slice (r : SliceRecord) : String :=
  let pointer := Text.Hex.word r.pointerAddress
  let data := Text.Hex.word r.dataAddress
  let length := Text.Hex.word r.length
  s!"- {pointer} -> {data} [{length}] " ++ Text.Quoted.write r.text

def rejection (r : Rejection) : String :=
  "- " ++ Text.Hex.word r.address ++ ": " ++ r.reason.message

/-- What a run came to. -/
def run (binary : String) (id : Option Int) (r : RunResult) : String :=
  let title := r.status.title
  let head :=
    match id with
    | some id => s!"Recovery run {id} for {binary}: {title}"
    | none => s!"Recovery run for {binary} (not recorded): {title}"
  let rejections :=
    if r.rejections.isEmpty then []
    else s!"Rejected candidates: {r.rejections.length}" :: r.rejections.map rejection
  lines (
    [head, s!"Candidates examined: {r.candidates}", s!"Recovered slices: {r.slices.length}"]
    ++ r.slices.map slice ++ rejections
    ++ if r.sliceTypeCreated then ["Slice type created."] else [])

def record (r : RunRecord) : String :=
  let id := r.id.getD 0
  s!"- #{id} {r.binary} [{r.mode.label}] {r.status.label} accepted: {r.accepted}, "
    ++ s!"rejected: {r.rejected} (finished {r.finishedAt})"

/-- The records of runs. -/
def records (rs : List RunRecord) : String :=
  lines (if rs.isEmpty then ["No recovery runs recorded."] else "Recovery runs:" :: rs.map record)

def resize (r : ArrayResize) : String :=
  "- " ++ Text.Hex.word r.address ++ " -> " ++ Text.Hex.word r.length
    ++ " byte(s) (from code at " ++ Text.Hex.word r.codeAddress ++ ")"

def storedRejection (r : StoredRejection) : String :=
  "- " ++ Text.Hex.word r.address ++ s!" {r.reason}: {r.detail}"

/-- A recorded run with its details. -/
def details (id : Int) (d : RunDetails) : String :=
  let r := d.run
  let part (title : String) (rows : List String) : List String :=
    if rows.isEmpty then [] else "" :: title :: rows
  lines (
    [s!"Run #{id}", s!"Binary: {r.binary}"]
    ++ (r.binaryHash.map fun h => s!"Binary hash: {h}").toList
    ++ [s!"Mode: {r.mode.label}", s!"Status: {r.status.label}"]
    ++ (r.error.map fun e => s!"Error: {e}").toList
    ++ [s!"Started: {r.startedAt}", s!"Finished: {r.finishedAt}"]
    ++ part "Slices:" (d.slices.map slice)
    ++ part "Resized arrays:" (d.resized.map resize)
    ++ part "Rejections:" (d.rejections.map storedRejection))

end Report
end SliceRecovery
