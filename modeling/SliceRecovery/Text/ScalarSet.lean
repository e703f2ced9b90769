/-!
# SliceRecovery.Text.ScalarSet -- sets of Unicode scalar values by their boundaries

A property of scalar values is stored as the ascending list of the places where membership
changes: a value belongs to the set when the number of boundaries at or below it is odd.
-/

namespace SliceRecovery.Text

/-- A set of scalar values, given by the ascending places where membership changes. -/
structure ScalarSet where
  boundaries : Array Nat

namespace ScalarSet

/-- Number of boundaries at or below `n`, searched for between `lo` and `hi`. -/
def rank (s : ScalarSet) (n : Nat) : (fuel lo hi : Nat) → Nat
  | 0, lo, _ => lo
  | fuel + 1, lo, hi =>
    if lo < hi then
      let middle := (lo + hi) / 2
      if s.boundaries.getD middle 0 ≤ n then rank s n fuel (middle + 1) hi
      else rank s n fuel lo middle
    else lo

/-- Whether a scalar value belongs to the set. -/
def contains (s : ScalarSet) (c : Char) : Bool :=
  rank s c.toNat s.boundaries.size 0 s.boundaries.size % 2 == 1

end ScalarSet
end SliceRecovery.Text
