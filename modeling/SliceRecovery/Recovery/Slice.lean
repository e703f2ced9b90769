import SliceRecovery.Recovery.Candidate
import SliceRecovery.Text.Utf8

/-!
# SliceRecovery.Recovery.Slice -- from a pointer to a validated string

The word after the pointer is read as a length, unless something that is no integer is declared
there. A length has to lie strictly between zero and the limit, the bytes have to be readable, and
they have to be UTF-8 throughout. A candidate that fails is rejected for the first of these
reasons that applies, and no other candidate is affected.
-/

namespace SliceRecovery

/-- The word after a pointer, read as a length. -/
structure LengthField where
  address : Address
  value : UInt64
  width : UInt64
  byteOrder : ByteOrder
  deriving DecidableEq, Repr

/-- A validated string with the pointer and the length that lead to it. -/
structure SliceRecord where
  pointerAddress : Address
  dataAddress : Address
  length : UInt64
  bytes : List UInt8
  text : String
  deriving DecidableEq, Repr

/-- Why a candidate was excluded. -/
inductive RejectReason
  | zeroLength
  | tooLong (length limit : UInt64)
  | readFailure (a : Address) (length : UInt64)
  | decodeFailure (validUpTo : UInt64)
  | conflictingType (a : Address) (kind : DataKind)
  deriving DecidableEq, Repr

/-- A candidate that was excluded, by the address of its pointer. -/
structure Rejection where
  address : Address
  reason : RejectReason
  deriving DecidableEq, Repr

namespace DataKind

/-- The word for a class of types in messages. -/
def title : DataKind → String
  | pointer => "Pointer"
  | integer => "Integer"
  | array => "Array"
  | composite => "Struct"
  | other => "Other"

end DataKind

namespace RejectReason

/-- The short name of a reason. -/
def label : RejectReason → String
  | zeroLength => "zero_length"
  | tooLong _ _ => "too_long"
  | readFailure _ _ => "read_failure"
  | decodeFailure _ => "decode_failure"
  | conflictingType _ _ => "conflicting_type"

/-- The sentence that reports a reason. -/
def message : RejectReason → String
  | zeroLength => "length is zero"
  | tooLong n limit =>
    "length " ++ Text.Hex.word n ++ " is not below the limit " ++ Text.Hex.word limit
  | readFailure a n => "could not read " ++ Text.Hex.word n ++ " bytes at " ++ Text.Hex.word a
  | decodeFailure n => s!"bytes are not valid UTF-8 (valid up to {n.toNat})"
  | conflictingType a k =>
    "length field at " ++ Text.Hex.word a ++ " is already typed as " ++ k.title

end RejectReason

namespace PointerCandidate

/-- The word where the length would stand. -/
def readLength (segments : List Segment) (arch : Architecture) (c : PointerCandidate) :
    Except RejectReason LengthField :=
  match Memory.readInteger segments c.lengthAddress arch.addressSize arch.byteOrder with
  | .ok n => .ok ⟨c.lengthAddress, n, arch.addressSize, arch.byteOrder⟩
  | .error _ => .error (.readFailure c.lengthAddress arch.addressSize)

/-- The length after the pointer, unless something that is no integer is declared there. -/
def resolveLength (h : Analysis) (arch : Architecture) (c : PointerCandidate) :
    Except RejectReason LengthField :=
  match h.declared.get? c.lengthAddress with
  | none => c.readLength h.segments arch
  | some v =>
    if v.type.kind = .integer then c.readLength h.segments arch
    else .error (.conflictingType c.lengthAddress v.type.kind)

/-- The string of a length at the pointee. -/
def validate (segments : List Segment) (limit : UInt64) (c : PointerCandidate) (length : UInt64) :
    Except RejectReason SliceRecord :=
  if length = 0 then .error .zeroLength
  else if limit ≤ length then .error (.tooLong length limit)
  else match Memory.read segments c.pointee length with
    | none => .error (.readFailure c.pointee length)
    | some bytes =>
      match Text.Utf8.read bytes with
      | .ok text => .ok ⟨c.source, c.pointee, length, bytes, text⟩
      | .error n => .error (.decodeFailure (UInt64.ofNat n))

/-- The string that a candidate leads to. -/
def resolve (h : Analysis) (arch : Architecture) (limit : UInt64) (c : PointerCandidate) :
    Except RejectReason SliceRecord := do
  let field ← c.resolveLength h arch
  c.validate h.segments limit field.value

end PointerCandidate
end SliceRecovery
