import SliceRecovery.Word

/-!
# SliceRecovery.Memory.Architecture -- byte order and word widths of the target
-/

namespace SliceRecovery

/-- Order of the bytes of an integer in memory. -/
inductive ByteOrder
  | little
  | big
  deriving DecidableEq, Repr

/-- What is known about the machine a binary is for. All widths are in bytes. -/
structure Architecture where
  name : String
  /-- Width of a native word; the length of a slice is read with this width. -/
  addressSize : UInt64
  /-- Width of a pointer to data. -/
  pointerWidth : UInt64
  byteOrder : ByteOrder
  defaultIntSize : UInt64
  deriving DecidableEq, Repr

namespace Architecture

/-- The common case in which a pointer is a native word. -/
def ofWordSize (name : String) (size : UInt64) (order : ByteOrder) : Architecture :=
  ⟨name, size, size, order, 4⟩

end Architecture
end SliceRecovery
