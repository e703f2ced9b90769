import SliceRecovery.Recovery.Marking
import SliceRecovery.Recovery.Reference

/-!
# SliceRecovery.Recovery.Run -- the two recovery runs

A *data run* resolves every pointer candidate, declares what it recovers and lists what it
rejects. A *code run* gives every byte array the length that the first usable reference to it
suggests. Both put all of their edits into one batch, report progress at every checkpoint and stop
at the first checkpoint at which they find themselves cancelled; what was finished by then stays.

A run that fails leaves the analysis with its batch taken back. One that stops at an overflow leaves
nothing to be said; which runs do is the subject of `Recovery.Overflow`.

Cancellation is modelled by the number of the first checkpoint that finds the run cancelled.
-/

namespace SliceRecovery

inductive RecoveryMode
  | readOnlyData
  | code
  deriving DecidableEq, Repr

inductive RunStatus
  | completed
  | cancelled
  deriving DecidableEq, Repr

/-- The part of a run that a checkpoint belongs to. -/
inductive Phase
  | classifyingRegions
  | scanningPointers
  | resolvingSlices
  | scanningArrays
  | followingReferences
  | finishing
  deriving DecidableEq, Repr

/-- The report of a checkpoint. -/
structure Progress where
  phase : Phase
  completed : Nat
  total : Nat
  deriving DecidableEq, Repr

/-- A new length of an array. -/
structure ArrayResize where
  address : Address
  codeAddress : Address
  previousLength : Option UInt64
  length : UInt64
  deriving DecidableEq, Repr

/-- The outcome of a run. -/
structure RunResult where
  mode : RecoveryMode
  status : RunStatus := .completed
  /-- Number of candidates that were looked at. -/
  candidates : UInt64 := 0
  slices : List SliceRecord := []
  resized : List ArrayResize := []
  rejections : List Rejection := []
  sliceTypeCreated : Bool := false
  deriving DecidableEq, Repr

/-- Why a run failed as a whole. -/
inductive RecoveryError
  | unknownArchitecture
  | noCandidateRegions
  | analysis (e : AnalysisError)
  deriving DecidableEq, Repr

namespace RecoveryError

def message : RecoveryError → String
  | unknownArchitecture => "could not determine the architecture of the binary"
  | noCandidateRegions => "no read-only segments or sections found in the binary"
  | analysis e => "host error: " ++ e.message

end RecoveryError

namespace RecoveryMode

def label : RecoveryMode → String
  | readOnlyData => "readonly_data"
  | code => "code"

/-- The mode of a label. -/
def ofLabel? (s : String) : Option RecoveryMode :=
  if s = "readonly_data" then some readOnlyData
  else if s = "code" then some code
  else none

end RecoveryMode

namespace RunResult

def isCancelled (r : RunResult) : Bool := r.status = .cancelled

end RunResult

/-- The number of the first checkpoint that finds the run cancelled, if one does. -/
abbrev Cancellation := Option Nat

/-- The checkpoints passed so far, newest first. -/
structure Watch where
  cancellation : Cancellation
  passed : List Progress

namespace Watch

/-- Whether the next checkpoint finds the run cancelled. -/
def stops (w : Watch) : Bool :=
  match w.cancellation with
  | none => false
  | some n => n ≤ w.passed.length

/-- Pass a checkpoint. -/
def pass (w : Watch) (p : Progress) : Watch := { w with passed := p :: w.passed }

end Watch

/-- A run in progress. -/
structure RunState where
  analysis : Analysis
  result : RunResult
  watch : Watch

/-- What a run leaves: its result or the error that ended it, the analysis, and the reports of its
checkpoints in order. -/
structure RunOutcome where
  result : Except RecoveryError RunResult
  analysis : Analysis
  progress : List Progress

namespace RunState

/-- Pass a checkpoint. -/
def pass (s : RunState) (phase : Phase) (completed total : Nat) : RunState :=
  { s with watch := s.watch.pass ⟨phase, completed, total⟩ }

/-- Mark the result as cancelled. -/
def cancel (s : RunState) : RunState :=
  { s with result := { s.result with status := .cancelled } }

/-- End with the result as it stands. -/
def finish (s : RunState) : RunOutcome := ⟨.ok s.result, s.analysis, s.watch.passed.reverse⟩

/-- End with an error. -/
def fail (s : RunState) (e : RecoveryError) : RunOutcome :=
  ⟨.error e, s.analysis, s.watch.passed.reverse⟩

/-- Take the open batch back and end with the error that the analysis reported. -/
def abort (s : RunState) (e : AnalysisError) : RunOutcome :=
  let analysis :=
    match s.analysis.revert with
    | .ok h => h
    | .error _ => s.analysis
  { s with analysis }.fail (.analysis e)

/-- Pass the last checkpoint, close the batch and ask for a new pass if the settings say so. -/
def close (config : RecoveryConfig) (total : Nat) (s : RunState) : RunOutcome :=
  let s := s.pass .finishing total total
  match s.analysis.commit with
  | .error e => s.fail (.analysis e)
  | .ok h =>
    { s with analysis := if config.requestPass then h.requestPass else h }.finish

/-- Count a candidate. -/
def count (s : RunState) : RunState :=
  { s with result := { s.result with candidates := s.result.candidates + 1 } }

end RunState

/-- The working set of an analysis whose architecture is known. -/
def Analysis.workingSet (h : Analysis) : Except RecoveryError WorkingSet :=
  match h.arch with
  | none => .error .unknownArchitecture
  | some _ => .ok (WorkingSet.ofRegions h.segmentRegions h.sections)

/-! ## The data run -/

namespace DataRun

/-- Declare an accepted slice, the slice type before the first one. -/
def accept (config : RecoveryConfig) (arch : Architecture) (r : SliceRecord) (s : RunState) :
    Except (RunState × AnalysisError) RunState :=
  let s :=
    if s.result.slices.isEmpty then
      let (created, h) := s.analysis.ensureSliceType config arch
      { s with analysis := h, result := { s.result with sliceTypeCreated := created } }
    else s
  match s.analysis.markSlice config r with
  | .error (h, e) => .error ({ s with analysis := h }, e)
  | .ok h =>
    .ok { s with analysis := h, result := { s.result with slices := s.result.slices ++ [r] } }

/-- Look at one candidate. -/
def examine (config : RecoveryConfig) (arch : Architecture) (c : PointerCandidate)
    (s : RunState) : Except (RunState × AnalysisError) RunState :=
  let s := s.count
  match c.resolve s.analysis arch config.maxLength with
  | .error reason =>
    .ok { s with result :=
      { s.result with rejections := s.result.rejections ++ [⟨c.source, reason⟩] } }
  | .ok r => accept config arch r s

/-- Look at the candidates that are left, `done` of `total` being finished. -/
def loop (config : RecoveryConfig) (arch : Architecture) (total : Nat) :
    (done : Nat) → List PointerCandidate → RunState → Except (RunState × AnalysisError) RunState
  | _, [], s => .ok s
  | done, c :: cs, s =>
    let stops := s.watch.stops
    let s := s.pass .resolvingSlices done total
    if stops then .ok s.cancel
    else match examine config arch c s with
      | .error e => .error e
      | .ok s => loop config arch total (done + 1) cs s

/-- The run inside its batch. -/
def inBatch (config : RecoveryConfig) (arch : Architecture) (cs : List PointerCandidate)
    (s : RunState) : RunOutcome :=
  match s.analysis.begin with
  | .error e => s.fail (.analysis e)
  | .ok h =>
    match loop config arch cs.length 0 cs { s with analysis := h } with
    | .error (s, e) => s.abort e
    | .ok s => s.close config cs.length

/-- The whole run. -/
def run (config : RecoveryConfig) (cancellation : Cancellation) (h : Analysis) : RunOutcome :=
  let s : RunState := ⟨h, { mode := .readOnlyData }, ⟨cancellation, []⟩⟩
  match h.arch with
  | none => s.fail .unknownArchitecture
  | some arch =>
    let stops := s.watch.stops
    let s := s.pass .classifyingRegions 0 1
    if stops then s.cancel.finish
    else
      let set := WorkingSet.ofRegions h.segmentRegions h.sections
      if set.isEmpty then s.fail .noCandidateRegions
      else
        let stops := s.watch.stops
        let s := s.pass .scanningPointers 0 1
        if stops then s.cancel.finish
        else inBatch config arch (PointerCandidate.scan h set arch.pointerWidth) s

end DataRun

/-! ## The code run -/

namespace CodeRun

/-- What following the references of an array came to. -/
inductive Step
  | next (s : RunState)
  | stopped (s : RunState)
  | failed (s : RunState) (e : AnalysisError)

/-- Follow the references of an array until one suggests a length. -/
def follow (array : Variable) (done total : Nat) : List CodeReference → RunState → Step
  | [], s => .next s
  | r :: rs, s =>
    let stops := s.watch.stops
    let s := s.pass .followingReferences done total
    if stops then .stopped s.cancel
    else match s.analysis.lengthFromReference? r with
      | none => follow array done total rs s
      | some n =>
        match s.analysis.define array.address (.text n) array.name with
        | .error e => .failed s e
        | .ok h =>
          .next { s with
            analysis := h
            result := { s.result with resized := s.result.resized ++
              [⟨array.address, r.codeAddress, array.type.arrayLength?, n⟩] } }

/-- Look at the arrays that are left, `done` of `total` being finished. -/
def loop (total : Nat) : (done : Nat) → List Variable → RunState →
    Except (RunState × AnalysisError) RunState
  | _, [], s => .ok s
  | done, array :: arrays, s =>
    let stops := s.watch.stops
    let s := s.pass .followingReferences done total
    if stops then .ok s.cancel
    else
      let s := s.count
      match follow array done total (s.analysis.referencesTo array.address) s with
      | .next s => loop total (done + 1) arrays s
      | .stopped s => .ok s
      | .failed s e => .error (s, e)

/-- The run inside its batch. -/
def inBatch (config : RecoveryConfig) (arrays : List Variable) (s : RunState) : RunOutcome :=
  match s.analysis.begin with
  | .error e => s.fail (.analysis e)
  | .ok h =>
    match loop arrays.length 0 arrays { s with analysis := h } with
    | .error (s, e) => s.abort e
    | .ok s => s.close config arrays.length

/-- The whole run. An empty working set gives an empty result. -/
def run (config : RecoveryConfig) (cancellation : Cancellation) (h : Analysis) : RunOutcome :=
  let s : RunState := ⟨h, { mode := .code }, ⟨cancellation, []⟩⟩
  let stops := s.watch.stops
  let s := s.pass .classifyingRegions 0 1
  if stops then s.cancel.finish
  else match h.workingSet with
    | .error e => s.fail e
    | .ok set =>
      let stops := s.watch.stops
      let s := s.pass .scanningArrays 0 1
      if stops then s.cancel.finish
      else inBatch config (byteArrayCandidates h set) s

end CodeRun

/-- The run of a mode. -/
def Analysis.recover (mode : RecoveryMode) (config : RecoveryConfig) (cancellation : Cancellation)
    (h : Analysis) : RunOutcome :=
  match mode with
  | .readOnlyData => DataRun.run config cancellation h
  | .code => CodeRun.run config cancellation h

end SliceRecovery
