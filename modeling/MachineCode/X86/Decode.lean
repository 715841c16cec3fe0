import MachineCode.Instruction
import MachineCode.X86.Body
import MachineCode.X86.Text

/-!
# Decoding x86 instructions

An instruction is read from a tape in two steps, the frame and the body; the
record is then a function of the two, of the address, and of the bytes that were
read. Groups, implicit registers and encoding detail are given on demand and
take no part in the rest of the record.
-/

namespace MachineCode.X86

open Bytes (Read)

/-- The groups of an instruction: those of the row, and those that follow from its scope and from
a relative branch. -/
def groupsOf (row : Row) : List Group :=
  let scope := match row.pattern.scope with
    | .any => []
    | .only64 => [Group.mode64]
    | .not64 => [Group.not64BitMode]
  let relative := if row.hasSource .rel then [Group.branchRelative] else []
  (scope ++ relative).foldl appendNew row.groups

/-- The register that an implicit use means. -/
def Implicit.resolve (f : Frame) : Implicit → Register
  | reg r => r
  | ax => .general 0 f.operandSize.bits false
  | dx => .general 2 f.operandSize.bits false
  | cx => .general 1 f.addressSize.bits false
  | si => .general 6 f.addressSize.bits false
  | di => .general 7 f.addressSize.bits false
  | sp => .general 4 f.head.mode.bits false
  | bp => .general 5 f.head.mode.bits false
  | ip => .instructionPointer f.head.mode.bits

/-- Implicit registers in order, each once: those of the row, the flags register if the
instruction concerns it, and the count register of a repeated string instruction. -/
def implicitRegisters (f : Frame) (uses : List Implicit) (flags : Bool) :
    List MachineCode.Register :=
  let count : Register := .general 1 f.addressSize.bits false
  let repeated := f.row.repeats && (repeatPrefix f.head f.row).isSome
  let regs := uses.map (Implicit.resolve f)
    ++ (if flags then [.flags] else [])
    ++ (if repeated then [count] else [])
  distinct (regs.map MachineCode.Register.ofX86)

/-- Opcode bytes filled up with zeros. -/
def Opcode.padded (o : Opcode) : Vector UInt8 4 :=
  Vector.ofFn fun (i : Fin 4) => o.bytes.getD i.val 0

/-- The x86 register in a register of either family. -/
def plainRegister : MachineCode.Register → Register
  | .x86 r => r
  | _ => .absent

/-- The encoding detail. -/
def detailOf (f : Frame) (body : Body) : Detail :=
  let memory := body.operands.findSome? Operand.memory?
  let part (g : MemoryRef → MachineCode.Register) : Register :=
    if body.sib.isSome then memory.elim .absent fun m => plainRegister (g m) else .absent
  let condition {α : Type} (set : PredicateSet) (absent : α) (ofImmediate : UInt8 → α) : α :=
    if f.row.predicates = some set then body.imm8.elim absent ofImmediate else absent
  { prefixes := f.head.prefixes.slots
    opcode := f.opcode.padded
    rex := f.head.prefixes.rex
    addressSize := UInt8.ofNat f.addressSize.bytes
    modrm := f.modrm.getD 0
    sib := body.sib.getD 0
    disp := body.disp
    sibIndex := part (·.index)
    sibScale := body.sib.elim 0 fun (sib : UInt8) => ((1 : UInt8) <<< (sib >>> 6)).toInt8
    sibBase := part (·.base)
    encoding := f.head.encoding
    sseCondition := condition .sse .absent SseCondition.ofImmediate
    avxCondition := condition .avx .absent AvxCondition.ofImmediate
    xopCondition := condition .xop .absent XopCondition.ofImmediate
    suppressExceptions := decide (f.control = .suppress)
    rounding := match f.control with
      | .rounding mode => mode
      | _ => .absent
    effects := ⟨f.row.effects⟩
    opmask := f.opmask }

/-- The record of an instruction. -/
def instructionOf (f : Frame) (body : Body) (bytes : List UInt8) (address : UInt64)
    (detail : Bool) : Instruction :=
  let effects : FlagEffects := ⟨f.row.effects⟩
  let whenDetailed {α : Type} (xs : List α) : List α := if detail then xs else []
  { address, bytes
    mnemonic := .x86 f.mnemonic
    operandText := operandsText f body.operands
    operands := body.operands
    length := UInt16.ofNat bytes.length
    architecture := .x86
    groups := whenDetailed (groupsOf f.row)
    implicitReads := whenDetailed (implicitRegisters f f.row.implicitReads effects.readsFlags)
    implicitWrites := whenDetailed (implicitRegisters f f.row.implicitWrites effects.writesFlags)
    detail := if detail then .x86 (detailOf f body) else .none }

/-- Reads the frame and the body of an instruction. -/
def readParts (mode : Width) (address : UInt64) : Read (Frame × Body) := do
  let frame ← readFrame mode
  let body ← readBody frame address
  return (frame, body)

/-- Decodes the instruction at the beginning of a tape. -/
def decode (mode : Width) (detail : Bool) (address : UInt64) : Read Instruction := do
  let ((frame, body), bytes) ← Read.withBytes (readParts mode address)
  return instructionOf frame body bytes address detail

end MachineCode.X86
