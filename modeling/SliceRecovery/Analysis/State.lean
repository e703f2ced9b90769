import SliceRecovery.Analysis.Variable
import SliceRecovery.Code.Block
import SliceRecovery.Memory.Image

/-!
# SliceRecovery.Analysis.State -- an analysed binary and its journal of edits

An analysis holds what is known of a binary: its memory, the named types, the variables declared
in memory, the references from code and the code itself. Edits made while a batch is open are
written to the batch's journal, newest first, each with what is needed to take it back. A closed
batch with edits in it goes to the history, from which it can be undone as a whole.

Taking a batch back replays its journal from the newest edit to the oldest.

A declaration measures types, and where that overflows the program stops. What a declaration comes to
is said for when it returns, and apart from it whether it does.
-/

namespace SliceRecovery

/-- One edit, with what it replaced. -/
inductive Edit
  | variableAdded (a : Address)
  | variableRemoved (v : Variable)
  | typeSet (name : String) (previous : Option Composite)

/-- An analysed binary. -/
structure Analysis where
  arch : Option Architecture := none
  segments : List Segment := []
  sections : List Region := []
  types : TypeTable := OrderedMap.empty
  declared : VariableTable := .empty
  references : List CodeReference := []
  blocks : List Block := []
  /-- The journal of the open batch, newest edit first. -/
  batch : Option (List Edit) := none
  /-- The journals of the closed batches, newest batch first. -/
  history : List (List Edit) := []
  /-- How often a new analysis pass was asked for. -/
  passes : Nat := 0

/-- Why an analysis refused a query or an edit, or could not be set up. -/
inductive AnalysisError
  | unmapped (a : Address) (length : UInt64)
  | unsupportedWidth (width : UInt64)
  | noVariable (a : Address)
  | unsizedType (a : Address)
  | batchOpen
  | noBatch
  deriving DecidableEq, Repr

namespace AnalysisError

def message : AnalysisError → String
  | unmapped a n =>
    "address range " ++ Text.Hex.word a ++ "+" ++ Text.Hex.word n ++ " is not backed by any segment"
  | unsupportedWidth w => s!"unsupported integer width {w.toNat}"
  | noVariable a => "no data variable at " ++ Text.Hex.word a
  | unsizedType a => "type at " ++ Text.Hex.word a ++ " has no known width"
  | batchOpen => "edit transaction error: an edit batch is already open"
  | noBatch => "edit transaction error: no edit batch is open"

end AnalysisError

namespace Analysis

/-! ## Memory -/

/-- The bytes of a range. -/
def read (h : Analysis) (a : Address) (length : UInt64) : Except AnalysisError (List UInt8) :=
  match Memory.read h.segments a length with
  | some bytes => .ok bytes
  | none => .error (.unmapped a length)

/-- An unsigned integer of one to eight bytes. -/
def readInteger (h : Analysis) (a : Address) (width : UInt64) (order : ByteOrder) :
    Except AnalysisError UInt64 :=
  match Memory.readInteger h.segments a width order with
  | .ok n => .ok n
  | .error .width => .error (.unsupportedWidth width)
  | .error .unmapped => .error (.unmapped a width)

/-- The regions of the segments. -/
def segmentRegions (h : Analysis) : List Region := h.segments.map Segment.region

/-! ## Variables and types -/

/-- A variable with the pointer that memory stores at it, where there is one to read. -/
def withValue (h : Analysis) (v : Variable) : Variable :=
  match v.type, h.arch with
  | .pointer w _, some arch =>
    match Memory.readInteger h.segments v.address w arch.byteOrder with
    | .ok n => { v with value := some n }
    | .error _ => v
  | _, _ => v

/-- All variables by address. -/
def reportedVariables (h : Analysis) : List Variable := h.declared.values.map h.withValue

/-- The variable that starts at an address. -/
def variableAt? (h : Analysis) (a : Address) : Option Variable :=
  (h.declared.get? a).map h.withValue

/-- Number of bytes that a variable covers; one if the width of its type is not known. -/
def extent (types : TypeTable) (v : Variable) : UInt64 :=
  match TypeTable.width? types v.type with
  | none => 1
  | some w => if w = 0 then 1 else w

/-- Whether a variable reaches into the range from `a` up to `stop`, ends being capped at the
largest address. -/
def overlaps (types : TypeTable) (a stop : Address) (v : Variable) : Bool :=
  v.address < stop && a < Word.addCapped v.address (extent types v)

/-- Write an edit to the journal of the open batch, if one is open. -/
def record (h : Analysis) (e : Edit) : Analysis :=
  { h with batch := h.batch.map (e :: ·) }

/-- Remove the variable at an address and write that down. -/
def evict (h : Analysis) (a : Address) : Analysis :=
  match h.declared.get? a with
  | none => h
  | some v => { h with declared := h.declared.erase a }.record (.variableRemoved v)

/-- Declare a variable. Every variable that overlaps it is removed first. -/
def define (h : Analysis) (a : Address) (type : DataType) (name : Option String) :
    Except AnalysisError Analysis :=
  match TypeTable.width? h.types type with
  | none => .error (.unsizedType a)
  | some w =>
    let stop := Word.addCapped a (if w = 0 then 1 else w)
    let covered := (h.declared.values.filter (overlaps h.types a stop)).map Variable.address
    let h := covered.foldl evict h
    .ok ({ h with declared := h.declared.place ⟨a, type, name, none⟩ }.record
      (.variableAdded a))

/-- Whether declaring a variable stops at an overflow. Its type is measured, and if it has a width, so
are the variables that start in front of its end. -/
def defineOverflows (h : Analysis) (a : Address) (type : DataType) : Bool :=
  match TypeTable.width h.types type with
  | .unknown => false
  | .overflow => true
  | .known w =>
    let stop := Word.addCapped a (if w = 0 then 1 else w)
    h.declared.values.any fun v => v.address < stop && TypeTable.width h.types v.type = .overflow

/-- Declare a variable, if that returns. -/
def define? (h : Analysis) (a : Address) (type : DataType) (name : Option String) :
    Option (Except AnalysisError Analysis) :=
  if h.defineOverflows a type then none else some (h.define a type name)

/-- Remove the variable that starts at an address. -/
def undefine (h : Analysis) (a : Address) : Except AnalysisError Analysis :=
  match h.declared.get? a with
  | none => .error (.noVariable a)
  | some v => .ok ({ h with declared := h.declared.erase a }.record (.variableRemoved v))

/-- Define a named type, replacing an earlier definition. -/
def defineType (h : Analysis) (name : String) (c : Composite) : Analysis :=
  { h with types := h.types.insert name c }.record (.typeSet name (h.types.get? name))

def hasType (h : Analysis) (name : String) : Bool := h.types.contains name

/-! ## Batches -/

/-- Take one edit back. -/
def takeBack (h : Analysis) : Edit → Analysis
  | .variableAdded a => { h with declared := h.declared.erase a }
  | .variableRemoved v => { h with declared := h.declared.place v }
  | .typeSet name (some c) => { h with types := h.types.insert name c }
  | .typeSet name none => { h with types := h.types.erase name }

/-- Take the edits of a journal back, newest first. -/
def rollBack (h : Analysis) (journal : List Edit) : Analysis := journal.foldl takeBack h

/-- Open a batch. -/
def begin (h : Analysis) : Except AnalysisError Analysis :=
  match h.batch with
  | some _ => .error .batchOpen
  | none => .ok { h with batch := some [] }

/-- Close the open batch. A batch without edits leaves no trace. -/
def commit (h : Analysis) : Except AnalysisError Analysis :=
  match h.batch with
  | none => .error .noBatch
  | some [] => .ok { h with batch := none }
  | some journal => .ok { h with batch := none, history := journal :: h.history }

/-- Close the open batch and take its edits back. -/
def revert (h : Analysis) : Except AnalysisError Analysis :=
  match h.batch with
  | none => .error .noBatch
  | some journal => .ok ({ h with batch := none }.rollBack journal)

/-- Take the newest batch of the history back, if there is one. -/
def undo? (h : Analysis) : Option Analysis :=
  match h.history with
  | [] => none
  | journal :: older => some ({ h with history := older }.rollBack journal)

/-- Ask for a new analysis pass. -/
def requestPass (h : Analysis) : Analysis := { h with passes := h.passes + 1 }

/-! ## Additions outside of any batch -/

def addSegment (h : Analysis) (r : Region) (bytes : List UInt8) : Analysis :=
  { h with segments := h.segments ++ [⟨{ r with kind := .segment }, bytes⟩] }

def addSection (h : Analysis) (r : Region) : Analysis :=
  { h with sections := h.sections ++ [{ r with kind := .sectionEntry }] }

def addVariable (h : Analysis) (a : Address) (type : DataType) (name : Option String) :
    Analysis :=
  { h with declared := h.declared.place ⟨a, type, name, none⟩ }

def addType (h : Analysis) (name : String) (c : Composite) : Analysis :=
  { h with types := h.types.insert name c }

def addReference (h : Analysis) (r : CodeReference) : Analysis :=
  { h with references := h.references ++ [r] }

def addBlock (h : Analysis) (b : Block) : Analysis := { h with blocks := h.blocks ++ [b] }

/-! ## Code -/

/-- The references to a data address, in the order of the index. -/
def referencesTo (h : Analysis) (a : Address) : List CodeReference :=
  h.references.filter fun r => r.dataAddress == a

/-- The first instruction at an address. -/
def instructionAt? (h : Analysis) (a : Address) : Option Instruction :=
  (h.blocks.flatMap Block.instructions).find? fun i => i.address == a

/-- The first block with an instruction at an address. -/
def blockAt? (h : Analysis) (a : Address) : Option Block := h.blocks.find? fun b => b.holds a

end Analysis
end SliceRecovery
