import SliceRecovery.Memory.Region

/-!
# SliceRecovery.Recovery.WorkingSet -- the read-only regions that recovery looks at

The working set holds the segments that can be read and neither written nor executed, and the
sections tagged as read-only data. An address that several of them cover is covered once.
-/

namespace SliceRecovery

/-- The read-only regions of a binary. -/
structure WorkingSet where
  regions : List Region

namespace WorkingSet

/-- The regions that qualify, segments first. -/
def ofRegions (segments sections : List Region) : WorkingSet :=
  ⟨segments.filter Region.isReadOnlySegment ++ sections.filter Region.isReadOnlyData⟩

/-- Whether an address lies in one of the regions. -/
def contains (s : WorkingSet) (a : Address) : Bool := s.regions.any fun r => r.contains a

def isEmpty (s : WorkingSet) : Bool := s.regions.isEmpty

def size (s : WorkingSet) : Nat := s.regions.length

end WorkingSet
end SliceRecovery
