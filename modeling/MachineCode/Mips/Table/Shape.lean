import MachineCode.Mips.Row

/-!
# Common shapes of MIPS rows

Operand lists that many rows share.
-/

namespace MachineCode.Mips.Table

open Row Slot

def rtField : Word := 0x001f0000
def rsField : Word := 0x03e00000
def rdField : Word := 0x0000f800
def saField : Word := 0x000007c0

def single : Word := 0x10
def double : Word := 0x11
def word : Word := 0x14
def long : Word := 0x15

/-- Three registers. -/
def threeRegs : List Slot :=
  [set .rd, use .rs, use .rt]

/-- A shift by a constant. -/
def shiftImm : List Slot :=
  [set .rd, use .rt, note .shift]

/-- A shift by a register. -/
def shiftReg : List Slot :=
  [set .rd, use .rt, use .rs]

/-- Two source registers. -/
def rsRt : List Slot :=
  [use .rs, use .rt]

/-- A trap on two registers. -/
def trap : List Slot :=
  [use .rs, use .rt, note .code]

/-- A trap on a register and an immediate. -/
def trapImm : List Slot :=
  [use .rs, use .signedImm]

/-- A register moved from `rs`. -/
def rdRs : List Slot :=
  [set .rd, use .rs]

/-- A register moved from `rt`. -/
def rdRt : List Slot :=
  [set .rd, use .rt]

/-- A register and a signed immediate. -/
def immSigned : List Slot :=
  [set .rt, use .rs, use .signedImm]

/-- A register and an unsigned immediate. -/
def immUnsigned : List Slot :=
  [set .rt, use .rs, use .unsignedImm]

/-- A branch on two registers. -/
def branchRsRt : List Slot :=
  [use .rs, use .rt, use .branch16]

/-- A branch on `rs`. -/
def branchRs : List Slot :=
  [use .rs, use .branch16]

/-- A branch on nothing. -/
def branchOnly : List Slot :=
  [use .branch16]

/-- A branch on `rt`. -/
def branchRt : List Slot :=
  [use .rt, use .branch16]

/-- Three floating-point registers. -/
def float3 : List Slot :=
  [set .fd, use .fs, use .ft]

/-- Two floating-point registers. -/
def float2 : List Slot :=
  [set .fd, use .fs]

/-- A comparison into a condition code. -/
def floatCompare : List Slot :=
  [set .compareCondition, use .fs, use .ft]

/-- A load of some width into a general register. -/
def load (opcode : Word) (m : Mnemonic) (bits : UInt16) : Row :=
  primary opcode m [set .rt, use (.mem bits)]

/-- A store of some width from a general register. -/
def store (opcode : Word) (m : Mnemonic) (bits : UInt16) : Row :=
  primary opcode m [use .rt, set (.mem bits)]

end MachineCode.Mips.Table
