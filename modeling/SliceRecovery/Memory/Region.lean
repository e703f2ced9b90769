import SliceRecovery.Text.Hex
import SliceRecovery.Word

/-!
# SliceRecovery.Memory.Region -- half-open, non-empty ranges of the address space

A region `start..stop` holds the addresses from `start` up to but not including `stop`. Regions
come from two lists of the binary: segments carry permissions, sections carry a semantic tag.
-/

namespace SliceRecovery

/-- The list of the binary that a region comes from. -/
inductive RegionKind
  | segment
  | sectionEntry
  deriving DecidableEq, Repr

/-- What a section is for. -/
inductive SectionUse
  | standard
  | readOnlyCode
  | readOnlyData
  | readWriteData
  | external
  deriving DecidableEq, Repr

/-- A segment or section of the address space. -/
structure Region where
  start : Address
  stop : Address
  kind : RegionKind := .segment
  name : Option String := none
  readable : Bool := false
  writable : Bool := false
  executable : Bool := false
  use : Option SectionUse := none
  deriving DecidableEq, Repr

/-- The bounds of a range that is empty or upside down. -/
structure EmptyRange where
  start : Address
  stop : Address
  deriving DecidableEq, Repr

namespace EmptyRange

def message (e : EmptyRange) : String :=
  "empty or inverted region " ++ Text.Hex.word e.start ++ ".." ++ Text.Hex.word e.stop

end EmptyRange

namespace Region

/-- A region is accepted when it holds at least one address. -/
def validate (r : Region) : Except EmptyRange Unit :=
  if r.start < r.stop then .ok () else .error ⟨r.start, r.stop⟩

/-- A region that is returned only when it holds an address. -/
def validated (r : Region) : Except EmptyRange Region := r.validate.map fun _ => r

/-- A segment with permissions. -/
def segment (start stop : Address) (readable writable executable : Bool) :
    Except EmptyRange Region :=
  validated { start, stop, kind := .segment, readable, writable, executable }

/-- A named section; its permissions follow from its use. -/
def ofUse (name : String) (start stop : Address) (use : SectionUse) : Except EmptyRange Region :=
  validated
    { start, stop, kind := .sectionEntry, name := some name, readable := true
      writable := use = .readWriteData, executable := use = .readOnlyCode, use := some use }

/-- Whether an address lies in the region. -/
def contains (r : Region) (a : Address) : Bool := r.start ≤ a && a < r.stop

/-- Number of addresses. -/
def size (r : Region) : UInt64 := Word.subFloored r.stop r.start

/-- Whether the region holds no address. -/
def isEmpty (r : Region) : Bool := r.size == 0

/-- A segment that can be read and neither written nor executed. -/
def isReadOnlySegment (r : Region) : Bool := r.readable && !r.writable && !r.executable

/-- A section tagged as read-only data. -/
def isReadOnlyData (r : Region) : Bool := r.use = some .readOnlyData

end Region
end SliceRecovery
