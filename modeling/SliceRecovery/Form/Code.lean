import SliceRecovery.Code.Block
import SliceRecovery.Json.Decode

/-!
# SliceRecovery.Form.Code -- JSON forms of instructions, blocks and references
-/

namespace SliceRecovery

open Json (Decoder)
open Json.Decode (Parts record)

namespace Operation

def names : List (String × Operation) :=
  [("set_var", setVariable), ("set_var_field", setField), ("compare", compare), ("call", call),
    ("other", other)]

def label : Operation → String
  | setVariable => "set_var"
  | setField => "set_var_field"
  | compare => "compare"
  | call => "call"
  | other => "other"

def toJson (o : Operation) : Json := .str o.label

def decoder : Decoder Operation := Json.Decode.name .direct names

end Operation

namespace OperandKind

def names : List (String × OperandKind) :=
  [("variable", named), ("constant", constant), ("other", other)]

def label : OperandKind → String
  | named => "variable"
  | constant => "constant"
  | other => "other"

def toJson (k : OperandKind) : Json := .str k.label

def decoder : Decoder OperandKind := Json.Decode.name .direct names

end OperandKind

namespace Operand

def toJson (o : Operand) : Json :=
  .obj ([("kind", o.kind.toJson)] ++ Json.member? "name" .str o.name
    ++ Json.member? "value" .word o.value)

def decoder : Decoder Operand :=
  record ["kind", "name", "value"] fun p =>
    Operand.mk <$> p.need "kind" OperandKind.decoder
      <*> p.get? "name" Json.Decode.text <*> p.get? "value" Json.Decode.word

end Operand

namespace Instruction

def toJson (i : Instruction) : Json :=
  .obj [("index", .word i.index), ("address", .word i.address),
    ("operation", i.operation.toJson), ("operands", .list Operand.toJson i.operands)]

def decoder : Decoder Instruction :=
  record ["index", "address", "operation", "operands"] fun p =>
    Instruction.mk <$> p.need "index" Json.Decode.word
      <*> p.need "address" Json.Decode.word
      <*> p.need "operation" Operation.decoder
      <*> p.getD "operands" (Json.Decode.list Operand.decoder) []

end Instruction

namespace Block

def toJson (b : Block) : Json :=
  .obj [("start", .word b.start), ("instructions", .list Instruction.toJson b.instructions)]

def decoder : Decoder Block :=
  record ["start", "instructions"] fun p =>
    Block.mk <$> p.need "start" Json.Decode.word
      <*> p.need "instructions" (Json.Decode.list Instruction.decoder)

end Block

namespace CodeReference

def toJson (r : CodeReference) : Json :=
  .obj [("code_address", .word r.codeAddress), ("data_address", .word r.dataAddress)]

def decoder : Decoder CodeReference :=
  record ["code_address", "data_address"] fun p =>
    CodeReference.mk <$> p.need "code_address" Json.Decode.word
      <*> p.need "data_address" Json.Decode.word

end CodeReference
end SliceRecovery
