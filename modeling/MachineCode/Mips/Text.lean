import MachineCode.Decimal.Shortest
import MachineCode.Mips.Row
import MachineCode.Text.Number

/-!
# Operand text of MIPS instructions

Registers carry a dollar sign, memory is an offset before the base register in
parentheses, and immediates are signed. Addresses in the program and the numbers
of coprocessor registers have their own forms. A trap code of zero is not
written.
-/

namespace MachineCode.Mips

/-- Whether a source is an address in the program. -/
def Source.isTarget : Source → Bool
  | .branch16 | .branch21 | .branch26 | .jump26 | .pc19 => true
  | _ => false

/-- The text of an immediate. -/
def immediateText (source : Source) (size : UInt16) (value : Int64) : String :=
  if source = .rawRd then "$" ++ Text.decimalSigned value.toInt
  else if source.isTarget then
    let target := value.toUInt64.toNat
    Text.compact (if 64 ≤ size then target else target % UInt32.size)
  else Text.compactSigned value.toInt

/-- The text of an operand. -/
def operandText (source : Source) (o : Operand) : String :=
  match o.kind with
  | .register r => "$" ++ r.name
  | .memory m => Text.compactSigned m.disp.toInt ++ "($" ++ m.base.name ++ ")"
  | .immediate value => immediateText source o.size value
  | .floatImmediate value => value.text

/-- Whether an operand is a trap code of zero. -/
def isZeroCode (source : Source) (o : Operand) : Bool :=
  decide (source = .code) && decide (o.immediate? = some 0)

/-- The text of all operands. -/
def operandsText (slots : List Slot) (operands : List Operand) : String :=
  let written := (slots.zip operands).filter fun (slot, o) => !isZeroCode slot.source o
  ", ".intercalate (written.map fun (slot, o) => operandText slot.source o)

end MachineCode.Mips
