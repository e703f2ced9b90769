import SliceRecovery.Recovery.Config
import SliceRecovery.Recovery.Slice

/-!
# SliceRecovery.Recovery.Marking -- writing recovered slices into the analysis

The bytes of a slice are declared as characters and its pair of words as an instance of the slice
type, which is a packed pair of a pointer to characters and an unsigned native word.
-/

namespace SliceRecovery

/-- The composite type of a slice on an architecture. -/
def Architecture.sliceType (arch : Architecture) : Composite where
  packed := true
  fields := [
    ⟨"address", .pointerTo .char arch.pointerWidth⟩,
    ⟨"length", .unsigned arch.addressSize⟩]

namespace Analysis

/-- Define the slice type unless a type of its name exists; tells whether it was defined. -/
def ensureSliceType (h : Analysis) (config : RecoveryConfig) (arch : Architecture) :
    Bool × Analysis :=
  if h.hasType config.sliceTypeName then (false, h)
  else (true, h.defineType config.sliceTypeName arch.sliceType)

/-- Declare the bytes of a slice and then its pair. A variable that starts at the bytes is removed
first. A failure comes with the analysis as edited up to it. -/
def markSlice (h : Analysis) (config : RecoveryConfig) (r : SliceRecord) :
    Except (Analysis × AnalysisError) Analysis :=
  let cleared :=
    match h.undefine r.dataAddress with
    | .ok h => h
    | .error _ => h
  match cleared.define r.dataAddress (.text r.length) none with
  | .error e => .error (cleared, e)
  | .ok marked =>
    match marked.define r.pointerAddress (.named config.sliceTypeName)
        (some (config.displayName r.text)) with
    | .error e => .error (marked, e)
    | .ok h => .ok h

/-- Whether declaring a slice stops at an overflow, at its bytes or at its pair. -/
def markOverflows (h : Analysis) (config : RecoveryConfig) (r : SliceRecord) : Bool :=
  let cleared :=
    match h.undefine r.dataAddress with
    | .ok h => h
    | .error _ => h
  cleared.defineOverflows r.dataAddress (.text r.length) ||
    match cleared.define r.dataAddress (.text r.length) none with
    | .error _ => false
    | .ok marked => marked.defineOverflows r.pointerAddress (.named config.sliceTypeName)

/-- Declare a slice, if that returns. -/
def markSlice? (h : Analysis) (config : RecoveryConfig) (r : SliceRecord) :
    Option (Except (Analysis × AnalysisError) Analysis) :=
  if h.markOverflows config r then none else some (h.markSlice config r)

end Analysis
end SliceRecovery
