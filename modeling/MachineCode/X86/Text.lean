import MachineCode.Decimal.Shortest
import MachineCode.X86.Frame

/-!
# Operand text of x86 instructions

Operands are written in the order of the instruction's operands, destination
first. Memory shows its size as a keyword, then the address in brackets:
`dword ptr fs:[rcx*8 + 0x28]`. Immediates are written without a sign, as the
bits that the operand has. Decorations of the vector encodings stand in braces.
-/

namespace MachineCode.X86

/-- The size keyword of a memory operand. -/
def sizeName? (bits : UInt16) : Option String :=
  [((8 : UInt16), "byte"), (16, "word"), (32, "dword"), (48, "fword"), (64, "qword"),
    (80, "xword"), (128, "xmmword"), (256, "ymmword"), (512, "zmmword")].lookup bits

/-- The low bits of a value; all of them for size zero and from 64 on. -/
def lowBits (value : Int64) (bits : UInt16) : Nat :=
  if bits = 0 then value.toBitVec.toNat else (value.toBitVec.setWidth bits.toNat).toNat

/-- A text in braces. -/
def braced (s : String) : String :=
  "\x7b" ++ s ++ "\x7d"

namespace MemoryText

/-- The index register with its scale. -/
def indexText (m : MemoryRef) : String :=
  m.index.name ++ m.reportedScale.elim "" fun s => "*" ++ Text.decimal s.toNat

/-- The registers of the address, added up. -/
def terms (m : MemoryRef) : List String :=
  (if m.base.present then [m.base.name] else [])
    ++ (if m.index.present then [indexText m] else [])

/-- The displacement behind a register; none if it is zero. -/
def dispText (disp : Int64) : String :=
  if disp < 0 then " - " ++ Text.compact disp.toInt.natAbs
  else if 0 < disp then " + " ++ Text.compact disp.toInt.natAbs
  else ""

/-- What stands between the brackets. A displacement alone is an address. -/
def inner (m : MemoryRef) (addressSize : Width) : String :=
  if (terms m).isEmpty then Text.compact (lowBits m.disp addressSize.bits)
  else " + ".intercalate (terms m) ++ dispText m.disp

end MemoryText

/-- The text of a memory operand. -/
def memoryText (m : MemoryRef) (size : UInt16) (addressSize : Width) : String :=
  (sizeName? size).elim "" (· ++ " ptr ")
    ++ (if m.segment.present then m.segment.name ++ ":" else "")
    ++ "[" ++ MemoryText.inner m addressSize ++ "]"

/-- The text of an operand without its write mask. -/
def plainOperandText (addressSize : Width) (o : Operand) : String :=
  match o.kind with
  | .register r => r.name
  | .immediate value => Text.compact (lowBits value o.size)
  | .memory m => memoryText m o.size addressSize ++ o.broadcast.elim "" fun b => braced b.text
  | .floatImmediate value => value.text

/-- The text of an operand. -/
def operandText (addressSize : Width) (o : Operand) : String :=
  plainOperandText addressSize o
    ++ (if o.mask.present then " " ++ braced o.mask.name else "")
    ++ (if o.zeroing then " " ++ braced "z" else "")

/-- The text of the embedded control, behind the last operand. -/
def EmbeddedControl.text : EmbeddedControl → String
  | none => ""
  | rounding mode => ", " ++ braced (Vocabulary.name mode ++ "-sae")
  | suppress => ", " ++ braced "sae"

/-- The text of all operands. The two operands of a far pointer are written as one. -/
def operandsText (f : Frame) (operands : List Operand) : String :=
  let texts := operands.map (operandText f.addressSize)
  match f.row.slots, texts with
  | ⟨.farPointer, _, _⟩ :: _, [selector, offset] => selector ++ ":" ++ offset
  | _, _ => ", ".intercalate texts ++ f.control.text

end MachineCode.X86
