import MachineCode.Mips.Register
import MachineCode.X86.Register

/-!
# Registers of either family

Operands and instruction records name registers of any architecture, or none.
-/

namespace MachineCode

/-- A register of some architecture, or none. -/
inductive Register where
  | absent
  | x86 (r : X86.Register)
  | mips (r : Mips.Register)
deriving DecidableEq

/-- Broad classes of registers. -/
inductive RegisterKind where
  | general | float | vector | flags | segment | control | debug | mask | accumulator
  | programCounter
deriving DecidableEq

/-- Name of a register class. -/
def RegisterKind.name : RegisterKind → String
  | general => "General"
  | float => "Float"
  | vector => "Vector"
  | flags => "Flags"
  | segment => "Segment"
  | control => "Control"
  | debug => "Debug"
  | mask => "Mask"
  | accumulator => "Accumulator"
  | programCounter => "ProgramCounter"

/-- The class of an x86 register. -/
def X86.Register.kind : X86.Register → RegisterKind
  | .flags | .status => .flags
  | .ip | .eip | .rip => .programCounter
  | .segment _ => .segment
  | .control _ => .control
  | .debug _ => .debug
  | .stack _ => .float
  | .opmask _ => .mask
  | .mmx _ | .xmm _ | .ymm _ | .zmm _ => .vector
  | .absent | .byte _ | .highByte _ | .word _ | .dword _ | .qword _ => .general

/-- The class of a MIPS register. -/
def Mips.Register.kind : Mips.Register → RegisterKind
  | .hi | .lo | .accumulator _ => .accumulator
  | .pc => .programCounter
  | .general _ => .general
  | .condition _ => .flags
  | .float _ => .float
  | .absent | .vector _ => .vector

namespace Register

/-- An x86 register as a register of either family. -/
def ofX86 (r : X86.Register) : Register :=
  if r = .absent then absent else x86 r

/-- A MIPS register as a register of either family. -/
def ofMips (r : Mips.Register) : Register :=
  if r = .absent then absent else mips r

/-- Display name; empty when there is no register. -/
def name : Register → String
  | absent => ""
  | x86 r => r.name
  | mips r => r.name

/-- Whether there is a register. -/
def present (r : Register) : Bool :=
  decide (r ≠ absent)

/-- Width in bits; general MIPS registers report their 64-bit width. -/
def size : Register → UInt16
  | absent => 0
  | x86 r => r.size
  | mips r => r.size 64

/-- The class of a register, if there is one. -/
def kind : Register → Option RegisterKind
  | absent => none
  | x86 r => some r.kind
  | mips r => some r.kind

end Register

end MachineCode
