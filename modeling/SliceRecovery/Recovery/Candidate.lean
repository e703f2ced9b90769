import SliceRecovery.Analysis.State
import SliceRecovery.Recovery.WorkingSet

/-!
# SliceRecovery.Recovery.Candidate -- pointers and arrays that may belong to a string

A pointer candidate is a declared pointer whose stored value lies in the working set. A byte array
candidate is a declared array of one-byte elements that lies in the working set itself. Both are
listed by ascending address, as the variables are.
-/

namespace SliceRecovery

/-- A declared pointer into read-only memory. -/
structure PointerCandidate where
  source : Address
  pointerWidth : UInt64
  pointee : Address
  deriving DecidableEq, Repr

namespace PointerCandidate

/-- Where the length of the slice would stand: right after the pointer, wrapping around. -/
def lengthAddress (c : PointerCandidate) : Address := c.source + c.pointerWidth

/-- The candidate that a variable is. A pointer without a width of its own has the given one. -/
def ofVariable? (set : WorkingSet) (defaultWidth : UInt64) (v : Variable) :
    Option PointerCandidate :=
  match v.type, v.value with
  | .pointer w _, some pointee =>
    if set.contains pointee then some ⟨v.address, if w > 0 then w else defaultWidth, pointee⟩
    else none
  | _, _ => none

/-- All candidates of an analysis. -/
def scan (h : Analysis) (set : WorkingSet) (defaultWidth : UInt64) : List PointerCandidate :=
  h.reportedVariables.filterMap (ofVariable? set defaultWidth)

end PointerCandidate

/-- The declared byte arrays in the working set. -/
def byteArrayCandidates (h : Analysis) (set : WorkingSet) : List Variable :=
  h.reportedVariables.filter fun v => v.type.isByteArray && set.contains v.address

end SliceRecovery
