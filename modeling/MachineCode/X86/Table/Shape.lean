import MachineCode.X86.Row

/-!
# Common shapes of rows

Operand lists that many rows share, the row constructors of the vector
encodings, and the sixteen rows that a condition code spans.
-/

namespace MachineCode.X86.Table

open Row Slot FlagEffects

/-- Destination and two sources of the vector length. -/
def vec3 : List Slot :=
  [wr .vecReg .vec, rd .vecV .vec, rd .vecRm .vec]

/-- Destination, two sources and an immediate byte. -/
def vec3Imm : List Slot :=
  [wr .vecReg .vec, rd .vecV .vec, rd .vecRm .vec, rd .imm .b8]

/-- Destination and one source of the vector length. -/
def vecLoad : List Slot :=
  [wr .vecReg .vec, rd .vecRm .vec]

/-- A register stored to a register or memory. -/
def vecStore : List Slot :=
  [wr .vecRm .vec, rd .vecReg .vec]

/-- Destination, one source and an immediate byte. -/
def vecLoadImm : List Slot :=
  [wr .vecReg .vec, rd .vecRm .vec, rd .imm .b8]

/-- Destination, a source it is merged with, and a 32-bit element. -/
def scalar32 : List Slot :=
  [wr .vecReg .b128, rd .vecV .b128, rd .vecRm .b32]

/-- Destination, a source it is merged with, and a 64-bit element. -/
def scalar64 : List Slot :=
  [wr .vecReg .b128, rd .vecV .b128, rd .vecRm .b64]

/-- An accumulating destination and two sources. -/
def fused : List Slot :=
  [rw .vecReg .vec, rd .vecV .vec, rd .vecRm .vec]

/-- An accumulating destination, a source and a 32-bit element. -/
def fused32 : List Slot :=
  [rw .vecReg .b128, rd .vecV .b128, rd .vecRm .b32]

/-- An accumulating destination, a source and a 64-bit element. -/
def fused64 : List Slot :=
  [rw .vecReg .b128, rd .vecV .b128, rd .vecRm .b64]

/-- A 128-bit register updated from a 128-bit source. -/
def xmmUpdate : List Slot :=
  [rw .vecReg .b128, rd .vecRm .b128]

/-- A 128-bit register updated from a source and an immediate byte. -/
def xmmUpdateImm : List Slot :=
  [rw .vecReg .b128, rd .vecRm .b128, rd .imm .b8]

/-- A 128-bit register written from a 128-bit source. -/
def xmmLoad : List Slot :=
  [wr .vecReg .b128, rd .vecRm .b128]

/-- A 128-bit register written from a source and an immediate byte. -/
def xmmLoadImm : List Slot :=
  [wr .vecReg .b128, rd .vecRm .b128, rd .imm .b8]

/-- A 128-bit register stored to a register or memory. -/
def xmmStore : List Slot :=
  [wr .vecRm .b128, rd .vecReg .b128]

/-- A 64-bit register updated from a 64-bit source. -/
def mmxUpdate : List Slot :=
  [rw .mmxReg .b64, rd .mmxRm .b64]

/-- A VEX row after `0F`. -/
def vex0F (opcode : UInt8) (m : Mnemonic) (slots : List Slot) : Row :=
  of .vex .map0F opcode m slots |>.group .avx

/-- A VEX row after `0F 38`, with prefix `66` unless said otherwise. -/
def vex38 (opcode : UInt8) (m : Mnemonic) (slots : List Slot) : Row :=
  of .vex .map0F38 opcode m slots |>.p66 |>.group .avx

/-- A VEX row after `0F 3A`, with prefix `66` unless said otherwise. -/
def vex3A (opcode : UInt8) (m : Mnemonic) (slots : List Slot) : Row :=
  of .vex .map0F3A opcode m slots |>.p66 |>.group .avx

/-- An EVEX row; its destination may carry a write mask unless said otherwise. -/
def evexRow (map : OpcodeMap) (opcode : UInt8) (m : Mnemonic) (slots : List Slot) : Row :=
  { of .evex map opcode m slots with maskable := true, groups := [.avx512] }

/-- An EVEX row after `0F`. -/
def evex0F (opcode : UInt8) (m : Mnemonic) (slots : List Slot) : Row :=
  evexRow .map0F opcode m slots

/-- An EVEX row after `0F 38`, with prefix `66` unless said otherwise. -/
def evex38 (opcode : UInt8) (m : Mnemonic) (slots : List Slot) : Row :=
  evexRow .map0F38 opcode m slots |>.p66

/-- An EVEX row after `0F 3A`, with prefix `66` unless said otherwise. -/
def evex3A (opcode : UInt8) (m : Mnemonic) (slots : List Slot) : Row :=
  evexRow .map0F3A opcode m slots |>.p66

/-- An XOP row of map 8. -/
def xop8 (opcode : UInt8) (m : Mnemonic) (slots : List Slot) : Row :=
  of .xop .xop8 opcode m slots |>.np |>.group .xop

/-- An XOP row of map 9. -/
def xop9 (opcode : UInt8) (m : Mnemonic) (slots : List Slot) : Row :=
  of .xop .xop9 opcode m slots |>.np |>.group .xop

/-- An XOP row of map A. -/
def xopA (opcode : UInt8) (m : Mnemonic) (slots : List Slot) : Row :=
  of .xop .xopA opcode m slots |>.np |>.group .xop

/-- Flags tested by the sixteen conditions; each pair of a condition and its opposite tests the
same flags. -/
def conditionTests : List (BitVec 64) :=
  [testOf, testCf, testZf, testCf ||| testZf, testSf, testPf, testSf ||| testOf,
    testZf ||| testSf ||| testOf].flatMap fun t => [t, t]

/-- Sixteen rows, one a condition, with consecutive opcodes. -/
def onConditions (base : UInt8) (row : UInt8 → Mnemonic → Row) (names : List Mnemonic) :
    List Row :=
  (names.zip conditionTests).zipIdx.map fun ((m, tests), i) =>
    row (base + UInt8.ofNat i) m |>.flags tests

end MachineCode.X86.Table
