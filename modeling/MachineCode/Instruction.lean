import MachineCode.Bytes.Hex
import MachineCode.Distinct
import MachineCode.Group
import MachineCode.Mips.Mnemonic
import MachineCode.Mode
import MachineCode.Operand
import MachineCode.X86.Detail
import MachineCode.X86.Mnemonic

/-!
# Decoded instructions

The record of one decoded instruction, and what follows from it: its text, its
end address, and the registers it uses. Registers are accounted for in order of
first use, each once: the implicit ones, then those of the operands.
-/

namespace MachineCode

/-- The name of an instruction. -/
inductive Mnemonic where
  | x86 (m : X86.Mnemonic)
  | mips (m : Mips.Mnemonic)
deriving DecidableEq

/-- Display name. -/
def Mnemonic.name : Mnemonic → String
  | x86 m => Vocabulary.name m
  | mips m => Vocabulary.name m

/-- Encoding detail of a MIPS instruction. -/
structure Mips.Detail where
  /-- The instruction word. -/
  raw : BitVec 32
  /-- Whether the following instruction runs before the transfer takes effect. -/
  delaySlot : Bool
deriving DecidableEq

/-- Encoding detail, unless it was switched off. -/
inductive Detail where
  | none
  | x86 (d : X86.Detail)
  | mips (d : Mips.Detail)
deriving DecidableEq

/-- A decoded instruction. -/
structure Instruction where
  address : UInt64
  bytes : List UInt8
  mnemonic : Mnemonic
  operandText : String
  operands : List Operand
  length : UInt16
  architecture : Architecture
  /-- Empty when detail is off, as are the implicit registers. -/
  groups : List Group
  implicitReads : List Register
  implicitWrites : List Register
  detail : Detail
deriving DecidableEq

namespace Instruction

/-- Address of the byte after the instruction, modulo 2⁶⁴. -/
def endAddress (i : Instruction) : UInt64 :=
  i.address + i.length.toUInt64

/-- Whether the instruction belongs to a group. -/
def inGroup (i : Instruction) (g : Group) : Bool :=
  i.groups.contains g

/-- Whether the instruction is a jump. -/
def isBranch (i : Instruction) : Bool :=
  i.inGroup .jump

/-- Whether the instruction is a call. -/
def isCall (i : Instruction) : Bool :=
  i.inGroup .call

/-- Whether the instruction returns from a call or an interrupt. -/
def isReturn (i : Instruction) : Bool :=
  i.inGroup .ret || i.inGroup .iret

/-- Every register read: implicitly, as an operand, in an address, or as a write mask. -/
def registersRead (i : Instruction) : List Register :=
  let all := i.implicitReads ++ i.operands.flatMap Operand.registersRead
  distinct (all.filter Register.present)

/-- Every register written, implicitly or as an operand. -/
def registersWritten (i : Instruction) : List Register :=
  let all := i.implicitWrites ++ i.operands.flatMap Operand.registersWritten
  distinct (all.filter Register.present)

/-- Mnemonic and operands. -/
def text (i : Instruction) : String :=
  if i.operandText.isEmpty then i.mnemonic.name else i.mnemonic.name ++ " " ++ i.operandText

/-- The columns of a listing: address, bytes, text. -/
def listingLine (address : UInt64) (bytes : List UInt8) (text : String) : String :=
  Text.hexPadded 8 address.toNat ++ ": " ++ Text.padRight 24 (Bytes.toHex bytes) ++ text

/-- The line of a listing. -/
def line (i : Instruction) : String :=
  listingLine i.address i.bytes i.text

end Instruction

end MachineCode
