import MachineCode.Text.Number

/-!
# Decode failures

A decode can stop for four reasons. The reason is kept apart from the place: a
stage of the decoder reports where it met the failure, and whoever started the
decoder moves the report to the start of the instruction.
-/

namespace MachineCode

/-- Why a decode stopped. -/
inductive Fault where
  /-- Too few bytes for the next opcode or selector unit. -/
  | underrun (needed available : Nat)
  /-- More prefix bytes, or a longer encoding, than the architecture allows. -/
  | excessivePrefixes (count : Nat)
  /-- No table row matches. -/
  | unknownOpcode
  /-- Too few bytes inside an operand. -/
  | truncatedOperand (needed available : Nat)
deriving DecidableEq

namespace Fault

/-- An underrun met while reading operands counts as a truncated operand. -/
def inOperand : Fault → Fault
  | .underrun needed available => .truncatedOperand needed available
  | fault => fault

/-- The reason without its numbers. -/
def kind : Fault → String
  | .underrun .. => "Underrun"
  | .excessivePrefixes .. => "ExcessivePrefixes"
  | .unknownOpcode => "UnknownOpcode"
  | .truncatedOperand .. => "TruncatedOperand"

end Fault

/-- A failure and the offset of the instruction it belongs to. -/
structure DecodeError where
  offset : Nat
  fault : Fault
deriving DecidableEq

namespace DecodeError

/-- The same failure at another offset. -/
def moveTo (e : DecodeError) (offset : Nat) : DecodeError :=
  { e with offset }

/-- The same failure, met while reading operands. -/
def inOperand (e : DecodeError) : DecodeError :=
  { e with fault := e.fault.inOperand }

/-- The message shown to a user. -/
def message (e : DecodeError) : String :=
  let place := Text.hex0x e.offset
  match e.fault with
  | .underrun needed available =>
    s!"underrun at offset {place}: needed {needed} byte(s), {available} available"
  | .excessivePrefixes count =>
    s!"excessive prefixes at offset {place}: {count} prefix bytes"
  | .unknownOpcode =>
    s!"unknown opcode at offset {place}"
  | .truncatedOperand needed available =>
    s!"truncated operand at offset {place}: needed {needed} byte(s), {available} available"

end DecodeError

end MachineCode
