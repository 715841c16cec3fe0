import MachineCode.Mode
import MachineCode.X86.Register

/-!
# Prefix bytes

An instruction may begin with any number of legacy prefix bytes, and in 64-bit
mode with extension bytes `40` to `4F`. Of a class of prefixes the last one
counts. An extension byte counts only if the opcode follows it, so every legacy
prefix after it cancels it.
-/

namespace MachineCode.X86

/-- What a run of prefix bytes says. -/
structure Prefixes where
  /-- The number of prefix bytes. -/
  count : Nat := 0
  /-- The last byte of each class, or zero: repeat or lock, segment, operand size, address size. -/
  slots : Vector UInt8 4 := #v[0, 0, 0, 0]
  lock : Bool := false
  /-- The last repeat prefix, `F2` or `F3`. -/
  repeats : Option UInt8 := none
  operandSize : Bool := false
  addressSize : Bool := false
  segment : Register := .absent
  /-- The extension byte, or zero. -/
  rex : UInt8 := 0
deriving DecidableEq

/-- The segment register that an override prefix names. -/
def segmentOverride? (b : UInt8) : Option Register :=
  if b = 0x26 then some .es
  else if b = 0x2e then some .cs
  else if b = 0x36 then some .ss
  else if b = 0x3e then some .ds
  else if b = 0x64 then some .fs
  else if b = 0x65 then some .gs
  else none

namespace Prefixes

/-- The most prefix bytes that an instruction may have. -/
def maxCount : Nat := 14

/-- Whether some prefix would act on a vector encoding. -/
def actOnVectors (p : Prefixes) : Bool :=
  p.rex != 0 || p.operandSize || p.lock || p.repeats.isSome

/-- Adds a legacy prefix byte; `none` if the byte is none. -/
def addLegacy? (p : Prefixes) (b : UInt8) : Option Prefixes :=
  if b = 0xf0 then some { p with lock := true, slots := p.slots.set 0 b }
  else if b = 0xf2 ∨ b = 0xf3 then some { p with repeats := some b, slots := p.slots.set 0 b }
  else if b = 0x66 then some { p with operandSize := true, slots := p.slots.set 2 b }
  else if b = 0x67 then some { p with addressSize := true, slots := p.slots.set 3 b }
  else match segmentOverride? b with
    | some segment => some { p with segment, slots := p.slots.set 1 b }
    | none => none

/-- Adds a prefix byte; `none` if the byte is no prefix in this mode. -/
def add? (mode : Width) (p : Prefixes) (b : UInt8) : Option Prefixes :=
  if mode = .w64 ∧ 0x40 ≤ b ∧ b ≤ 0x4f then
    some { p with rex := b, count := p.count + 1 }
  else match p.addLegacy? b with
    | some p => some { p with rex := 0, count := p.count + 1 }
    | none => none

end Prefixes

end MachineCode.X86
