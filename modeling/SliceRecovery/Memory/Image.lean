import SliceRecovery.Memory.Architecture
import SliceRecovery.Memory.Region

/-!
# SliceRecovery.Memory.Image -- reading bytes and integers through the segments

A segment is backed by bytes that may end before the region does; the rest of it reads as zeros,
and bytes past its end are never seen. A read starts in the first segment that holds its address
and goes on in the first segment that holds the end of that one, so it may run across segments
that abut but not across a gap.
-/

namespace SliceRecovery

/-- A segment and the bytes behind it. -/
structure Segment where
  region : Region
  bytes : List UInt8
  deriving DecidableEq, Repr

namespace Segment

/-- The bytes from offset `lo` up to offset `hi`, zeros standing for those that are missing. -/
def fill (bytes : List UInt8) (lo hi : Nat) : List UInt8 :=
  let backed := (bytes.drop lo).take (hi - lo)
  backed ++ List.replicate (hi - lo - backed.length) 0

/-- The `length` bytes at an address, if all of them lie in the segment. -/
def slice? (s : Segment) (a : Address) (length : UInt64) : Option (List UInt8) :=
  if !s.region.contains a then none
  else
    let offset := a - s.region.start
    match Word.add? offset length with
    | none => none
    | some stop =>
      if stop > s.region.size then none else some (fill s.bytes offset.toNat stop.toNat)

end Segment

namespace Memory

/-- The bytes from `a` up to `stop`, each part taken from the first segment that holds it. The
address rises with every step, past one more segment, so as many steps as there are segments are
enough. -/
def readUpTo (segments : List Segment) (stop : Address) :
    (fuel : Nat) → Address → Option (List UInt8)
  | 0, _ => none
  | fuel + 1, a =>
    match segments.find? fun s => s.region.contains a with
    | none => none
    | some s =>
      let next := if stop ≤ s.region.stop then stop else s.region.stop
      match s.slice? a (next - a) with
      | none => none
      | some bytes =>
        if next = stop then some bytes else (readUpTo segments stop fuel next).map (bytes ++ ·)

/-- The `length` bytes at an address, if every one of them is mapped. -/
def read (segments : List Segment) (a : Address) (length : UInt64) : Option (List UInt8) :=
  match Word.add? a length with
  | none => none
  | some stop => readUpTo segments stop (segments.length + 1) a

/-- The number whose bytes, least significant first, are given. -/
def ofLittle : List UInt8 → Nat
  | [] => 0
  | b :: bs => b.toNat + 256 * ofLittle bs

/-- The number whose bytes are given in a byte order. -/
def ofBytes (order : ByteOrder) (bytes : List UInt8) : Nat :=
  match order with
  | .little => ofLittle bytes
  | .big => ofLittle bytes.reverse

/-- Why an integer could not be read. -/
inductive IntegerFault
  | width
  | unmapped
  deriving DecidableEq, Repr

/-- The unsigned integer of one to eight bytes at an address. -/
def readInteger (segments : List Segment) (a : Address) (width : UInt64) (order : ByteOrder) :
    Except IntegerFault UInt64 :=
  if width = 0 ∨ 8 < width then .error .width
  else match read segments a width with
    | none => .error .unmapped
    | some bytes => .ok (UInt64.ofNat (ofBytes order bytes))

end Memory
end SliceRecovery
