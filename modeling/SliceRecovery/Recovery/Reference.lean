import SliceRecovery.Analysis.State

/-!
# SliceRecovery.Recovery.Reference -- the length of an array from the code that refers to it

The instruction at a reference has to store a value. The first constant after it in its own block
is then taken for the length; instructions are after it when their index is greater. A zero is no
length.
-/

namespace SliceRecovery.Analysis

/-- The length that the code at a reference suggests. -/
def lengthFromReference? (h : Analysis) (r : CodeReference) : Option UInt64 :=
  match h.instructionAt? r.codeAddress with
  | none => none
  | some i =>
    if !i.operation.isAssignment then none
    else match h.blockAt? r.codeAddress with
      | none => none
      | some b =>
        match (b.after i.index).findSome? Instruction.firstConstant? with
        | none => none
        | some n => if n > 0 then some n else none

end SliceRecovery.Analysis
