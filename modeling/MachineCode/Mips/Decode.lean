import MachineCode.Bytes.Tape
import MachineCode.Instruction
import MachineCode.Mips.Operand
import MachineCode.Mips.Text

/-!
# Decoding MIPS instructions

An instruction is one word of four bytes. The word selects the row, and the row
and the word give the record.
-/

namespace MachineCode.Mips

open Bytes (Read)

/-- The number of bytes of an instruction. -/
def wordLength : Nat := 4

/-- Reads an instruction word. -/
def readWord (v : Variant) : Read Word := do
  let bytes ← Read.bytes wordLength
  return BitVec.ofNat 32 ((if v.bigEndian then Bytes.bigEndian else Bytes.littleEndian) bytes)

/-- The groups of an instruction: those of the row, and those that follow from its generation,
register width and branch operands. -/
def groupsOf (row : Row) : List Group :=
  let generation := match row.generation with
    | .any => []
    | .beforeR6 => [Group.notMips32r6]
    | .r6 => [Group.mips32r6]
  let width :=
    if row.wide then [.mips64, .gp64Bit] ++ (if row.release2 then [.mips64r2] else [])
    else [.mips32] ++ (if row.release2 then [.mips32r2] else [])
  let relative := row.slots.any fun s =>
    match s.source with
    | .branch16 | .branch21 | .branch26 => true
    | _ => false
  let derived := [.stdenc] ++ generation ++ width ++ (if relative then [.branchRelative] else [])
  derived.foldl appendNew row.groups

/-- The record of an instruction. -/
def instructionOf (w : Word) (row : Row) (operands : List Operand) (bytes : List UInt8)
    (address : UInt64) (detail : Bool) : Instruction :=
  let whenDetailed {α : Type} (xs : List α) : List α := if detail then xs else []
  { address, bytes
    mnemonic := .mips row.mnemonic
    operandText := operandsText row.slots operands
    operands
    length := UInt16.ofNat bytes.length
    architecture := .mips
    groups := whenDetailed (groupsOf row)
    implicitReads := whenDetailed (row.implicitReads.map .ofMips)
    implicitWrites := whenDetailed (row.implicitWrites.map .ofMips)
    detail := if detail then .mips { raw := w, delaySlot := row.delaySlot } else .none }

/-- A failure of an operand slot, which knows the word and not where it lies. -/
def badSlot {α : Type} : Read α := fun t =>
  .error { offset := 0, fault := .unknownOpcode } t

/-- Reads the word, the row and the operands of an instruction. -/
def readParts (v : Variant) (address : UInt64) : Read (Word × Row × List Operand) := do
  let w ← readWord v
  match v.row? w with
  | none => Read.fail .unknownOpcode
  | some row =>
    match v.operands? address w row with
    | none => badSlot
    | some operands => return (w, row, operands)

/-- Decodes the instruction at the beginning of a tape. -/
def decode (v : Variant) (detail : Bool) (address : UInt64) : Read Instruction := do
  let ((w, row, operands), bytes) ← Read.withBytes (readParts v address)
  return instructionOf w row operands bytes address detail

end MachineCode.Mips
