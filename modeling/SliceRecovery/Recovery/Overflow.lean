import SliceRecovery.Recovery.Run

/-!
# SliceRecovery.Recovery.Overflow -- runs that stop at an overflow

The runs declare variables, and a declaration stops where measuring a type overflows. The whole
program stops then: the run has no result and no error, its batch stays open and nothing of it is put
on record. What a run comes to is said for when it returns; here is said whether it does. A run that
stops has come as far as its loop, which is followed up to the declaration that does not return.
-/

namespace SliceRecovery

namespace DataRun

/-- Whether declaring an accepted slice stops. -/
def acceptOverflows (config : RecoveryConfig) (arch : Architecture) (r : SliceRecord)
    (s : RunState) : Bool :=
  let h :=
    if s.result.slices.isEmpty then (s.analysis.ensureSliceType config arch).2 else s.analysis
  h.markOverflows config r

/-- Whether looking at a candidate stops. -/
def examineOverflows (config : RecoveryConfig) (arch : Architecture) (c : PointerCandidate)
    (s : RunState) : Bool :=
  match c.resolve s.analysis arch config.maxLength with
  | .error _ => false
  | .ok r => acceptOverflows config arch r s

/-- Whether looking at the candidates that are left stops, `done` of `total` being finished. -/
def loopOverflows (config : RecoveryConfig) (arch : Architecture) (total : Nat) :
    (done : Nat) → List PointerCandidate → RunState → Bool
  | _, [], _ => false
  | done, c :: cs, s =>
    let stops := s.watch.stops
    let s := s.pass .resolvingSlices done total
    if stops then false
    else
      examineOverflows config arch c s ||
        match examine config arch c s with
        | .error _ => false
        | .ok s => loopOverflows config arch total (done + 1) cs s

/-- Whether a run stops. One that was cancelled before its batch is found cancelled by its loop as
well, and without regions there are no candidates. -/
def overflows (config : RecoveryConfig) (cancellation : Cancellation) (h : Analysis) : Bool :=
  match h.arch, h.begin with
  | some arch, .ok opened =>
    let set := WorkingSet.ofRegions h.segmentRegions h.sections
    let cs := PointerCandidate.scan h set arch.pointerWidth
    let s : RunState := ⟨opened, { mode := .readOnlyData }, ⟨cancellation, []⟩⟩
    let s := (s.pass .classifyingRegions 0 1).pass .scanningPointers 0 1
    loopOverflows config arch cs.length 0 cs s
  | _, _ => false

end DataRun

namespace CodeRun

/-- Whether following the references of an array stops. -/
def followOverflows (array : Variable) (done total : Nat) : List CodeReference → RunState → Bool
  | [], _ => false
  | r :: rs, s =>
    let stops := s.watch.stops
    let s := s.pass .followingReferences done total
    if stops then false
    else match s.analysis.lengthFromReference? r with
      | none => followOverflows array done total rs s
      | some n => s.analysis.defineOverflows array.address (.text n)

/-- Whether looking at the arrays that are left stops, `done` of `total` being finished. -/
def loopOverflows (total : Nat) : (done : Nat) → List Variable → RunState → Bool
  | _, [], _ => false
  | done, array :: arrays, s =>
    let stops := s.watch.stops
    let s := (s.pass .followingReferences done total).count
    let rs := s.analysis.referencesTo array.address
    if stops then false
    else
      followOverflows array done total rs s ||
        match follow array done total rs s with
        | .next s => loopOverflows total (done + 1) arrays s
        | .stopped _ => false
        | .failed _ _ => false

/-- Whether a run stops. One that was cancelled before its batch is found cancelled by its loop as
well. -/
def overflows (cancellation : Cancellation) (h : Analysis) : Bool :=
  match h.workingSet, h.begin with
  | .ok set, .ok opened =>
    let arrays := byteArrayCandidates h set
    let s : RunState := ⟨opened, { mode := .code }, ⟨cancellation, []⟩⟩
    let s := (s.pass .classifyingRegions 0 1).pass .scanningArrays 0 1
    loopOverflows arrays.length 0 arrays s
  | _, _ => false

end CodeRun

namespace Analysis

/-- Whether the run of a mode stops at an overflow. -/
def recoverOverflows (mode : RecoveryMode) (config : RecoveryConfig) (cancellation : Cancellation)
    (h : Analysis) : Bool :=
  match mode with
  | .readOnlyData => DataRun.overflows config cancellation h
  | .code => CodeRun.overflows cancellation h

/-- The run of a mode, if it returns. -/
def recover? (mode : RecoveryMode) (config : RecoveryConfig) (cancellation : Cancellation)
    (h : Analysis) : Option RunOutcome :=
  if h.recoverOverflows mode config cancellation then none
  else some (h.recover mode config cancellation)

end Analysis
end SliceRecovery
