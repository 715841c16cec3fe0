import MachineCode.Decimal.Binary64
import MachineCode.Register

/-!
# Operands

An operand is a register, a signed immediate, a memory reference or a
floating-point immediate, with its size and how the instruction uses it. The
decorations of vector encodings (broadcast, zeroing, write mask) belong to the
operand they decorate.
-/

namespace MachineCode

/-- How an instruction uses an operand. -/
inductive Access where
  | none | read | write | readWrite
deriving DecidableEq

namespace Access

/-- Whether the operand is read. -/
def isRead : Access → Bool
  | read | readWrite => true
  | none | write => false

/-- Whether the operand is written. -/
def isWrite : Access → Bool
  | write | readWrite => true
  | none | read => false

/-- Display name. -/
def name : Access → String
  | none => "None"
  | read => "Read"
  | write => "Write"
  | readWrite => "ReadWrite"

end Access

/-- A memory reference: `segment:[base + index * scale + disp]`. -/
structure MemoryRef where
  segment : Register := .absent
  base : Register := .absent
  index : Register := .absent
  /-- One when no index is scaled. -/
  scale : UInt8 := 1
  disp : Int64 := 0
deriving DecidableEq

namespace MemoryRef

/-- The scale, if it changes the address. -/
def reportedScale (m : MemoryRef) : Option UInt8 :=
  if m.scale = 1 then none else some m.scale

/-- The registers that take part in the address. -/
def registers (m : MemoryRef) : List Register :=
  [m.segment, m.base, m.index].filter Register.present

end MemoryRef

/-- What an operand is. -/
inductive OperandKind where
  | register (r : Register)
  | immediate (value : Int64)
  | memory (m : MemoryRef)
  | floatImmediate (value : Binary64)
deriving DecidableEq

/-- Name of the variant. -/
def OperandKind.name : OperandKind → String
  | register _ => "Register"
  | immediate _ => "Immediate"
  | memory _ => "Memory"
  | floatImmediate _ => "FloatImmediate"

/-- How many copies of one element a broadcast memory operand stands for. -/
inductive Broadcast where
  | oneTo2 | oneTo4 | oneTo8 | oneTo16
deriving DecidableEq

namespace Broadcast

/-- The broadcast with a number of copies; only four numbers have an encoding. -/
def ofCount? (count : UInt16) : Option Broadcast :=
  if count = 2 then some oneTo2
  else if count = 4 then some oneTo4
  else if count = 8 then some oneTo8
  else if count = 16 then some oneTo16
  else none

/-- The number of copies. -/
def count : Broadcast → UInt16
  | oneTo2 => 2
  | oneTo4 => 4
  | oneTo8 => 8
  | oneTo16 => 16

/-- Display text. -/
def text : Broadcast → String
  | oneTo2 => "1to2"
  | oneTo4 => "1to4"
  | oneTo8 => "1to8"
  | oneTo16 => "1to16"

end Broadcast

/-- An operand of an instruction. -/
structure Operand where
  kind : OperandKind
  /-- Size in bits; zero for memory of which only the address is used. -/
  size : UInt16
  access : Access
  broadcast : Option Broadcast := none
  /-- Whether masked-out elements are zeroed. -/
  zeroing : Bool := false
  /-- The write mask. -/
  mask : Register := .absent
deriving DecidableEq

namespace Operand

/-- A register operand. -/
def ofRegister (r : Register) (size : UInt16) (access : Access) : Operand :=
  { kind := .register r, size, access }

/-- An immediate operand, which is always read. -/
def ofImmediate (value : Int64) (size : UInt16) : Operand :=
  { kind := .immediate value, size, access := .read }

/-- A memory operand. -/
def ofMemory (m : MemoryRef) (size : UInt16) (access : Access) : Operand :=
  { kind := .memory m, size, access }

/-- The register of a register operand. -/
def register? (o : Operand) : Option Register :=
  match o.kind with
  | .register r => some r
  | _ => none

/-- The value of an immediate operand. -/
def immediate? (o : Operand) : Option Int64 :=
  match o.kind with
  | .immediate v => some v
  | _ => none

/-- The reference of a memory operand. -/
def memory? (o : Operand) : Option MemoryRef :=
  match o.kind with
  | .memory m => some m
  | _ => none

/-- Registers that the operand reads: a register operand that is read, the address registers of
memory whatever its access, and the write mask. -/
def registersRead (o : Operand) : List Register :=
  (match o.kind with
    | .register r => if o.access.isRead then [r] else []
    | .memory m => m.registers
    | _ => []) ++ [o.mask]

/-- Registers that the operand writes. -/
def registersWritten (o : Operand) : List Register :=
  match o.kind with
  | .register r => if o.access.isWrite then [r] else []
  | _ => []

end Operand

end MachineCode
