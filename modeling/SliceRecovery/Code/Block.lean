import SliceRecovery.Word

/-!
# SliceRecovery.Code.Block -- instructions in basic blocks

Only the shape of code that matters for recovery is kept: what an instruction does, and the
constants among its operands.
-/

namespace SliceRecovery

/-- What an instruction does. -/
inductive Operation
  /-- A value is stored into a variable. -/
  | setVariable
  /-- A value is stored into a field of a variable. -/
  | setField
  | compare
  | call
  | other
  deriving DecidableEq, Repr

inductive OperandKind
  /-- A variable, known by its name. -/
  | named
  | constant
  | other
  deriving DecidableEq, Repr

structure Operand where
  kind : OperandKind
  name : Option String
  value : Option UInt64
  deriving DecidableEq, Repr

structure Instruction where
  /-- Position in the function; orders the instructions of a block. -/
  index : UInt64
  address : Address
  operation : Operation
  operands : List Operand
  deriving DecidableEq, Repr

/-- A straight run of instructions. -/
structure Block where
  start : Address
  instructions : List Instruction
  deriving DecidableEq, Repr

/-- A place in code that refers to a place in data. -/
structure CodeReference where
  codeAddress : Address
  dataAddress : Address
  deriving DecidableEq, Repr

namespace Operation

/-- Whether a value is stored into a variable or one of its fields. -/
def isAssignment : Operation → Bool
  | setVariable => true
  | setField => true
  | compare => false
  | call => false
  | other => false

end Operation

namespace Operand

/-- The value of a constant. -/
def constant? (o : Operand) : Option UInt64 :=
  match o.kind with
  | .constant => o.value
  | .named => none
  | .other => none

end Operand

namespace Instruction

/-- The value of the first constant that has one. -/
def firstConstant? (i : Instruction) : Option UInt64 := i.operands.findSome? Operand.constant?

end Instruction

namespace Block

/-- The instructions with a greater index, in the order of the block. -/
def after (b : Block) (index : UInt64) : List Instruction :=
  b.instructions.filter fun i => index < i.index

/-- Whether an instruction of the block stands at an address. -/
def holds (b : Block) (a : Address) : Bool := b.instructions.any fun i => i.address == a

end Block
end SliceRecovery
