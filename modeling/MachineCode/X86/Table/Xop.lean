import MachineCode.X86.Table.Shape

/-!
# Vectors in the XOP encoding

Three maps of their own. Some instructions exist in both operand orders, told
apart by the W bit.
-/

namespace MachineCode.X86.Table

open Row Slot FlagEffects

/-- Multiply-accumulate, permutation, compares, horizontal sums and bit fields. -/
def xopRows : List Row := [
  xop8 0x85 .vpmacssww [wr .vecReg .b128, rd .vecV .b128, rd .vecRm .b128, rd .vecImm .b128] |>.w0
    |>.len 0,
  xop8 0x86 .vpmacsswd [wr .vecReg .b128, rd .vecV .b128, rd .vecRm .b128, rd .vecImm .b128] |>.w0
    |>.len 0,
  xop8 0x87 .vpmacssdql [wr .vecReg .b128, rd .vecV .b128, rd .vecRm .b128, rd .vecImm .b128]
    |>.w0 |>.len 0,
  xop8 0x8e .vpmacssdd [wr .vecReg .b128, rd .vecV .b128, rd .vecRm .b128, rd .vecImm .b128] |>.w0
    |>.len 0,
  xop8 0x8f .vpmacssdqh [wr .vecReg .b128, rd .vecV .b128, rd .vecRm .b128, rd .vecImm .b128]
    |>.w0 |>.len 0,
  xop8 0x95 .vpmacsww [wr .vecReg .b128, rd .vecV .b128, rd .vecRm .b128, rd .vecImm .b128] |>.w0
    |>.len 0,
  xop8 0x96 .vpmacswd [wr .vecReg .b128, rd .vecV .b128, rd .vecRm .b128, rd .vecImm .b128] |>.w0
    |>.len 0,
  xop8 0x97 .vpmacsdql [wr .vecReg .b128, rd .vecV .b128, rd .vecRm .b128, rd .vecImm .b128] |>.w0
    |>.len 0,
  xop8 0x9e .vpmacsdd [wr .vecReg .b128, rd .vecV .b128, rd .vecRm .b128, rd .vecImm .b128] |>.w0
    |>.len 0,
  xop8 0x9f .vpmacsdqh [wr .vecReg .b128, rd .vecV .b128, rd .vecRm .b128, rd .vecImm .b128] |>.w0
    |>.len 0,
  xop8 0xa6 .vpmadcsswd [wr .vecReg .b128, rd .vecV .b128, rd .vecRm .b128, rd .vecImm .b128]
    |>.w0 |>.len 0,
  xop8 0xb6 .vpmadcswd [wr .vecReg .b128, rd .vecV .b128, rd .vecRm .b128, rd .vecImm .b128] |>.w0
    |>.len 0,
  xop8 0xa2 .vpcmov [wr .vecReg .vec, rd .vecV .vec, rd .vecRm .vec, rd .vecImm .vec] |>.w0,
  xop8 0xa2 .vpcmov [wr .vecReg .vec, rd .vecV .vec, rd .vecImm .vec, rd .vecRm .vec] |>.w1,
  xop8 0xa3 .vpperm [wr .vecReg .b128, rd .vecV .b128, rd .vecRm .b128, rd .vecImm .b128] |>.w0
    |>.len 0,
  xop8 0xa3 .vpperm [wr .vecReg .b128, rd .vecV .b128, rd .vecImm .b128, rd .vecRm .b128] |>.w1
    |>.len 0,
  xop8 0xc0 .vprotb xmmLoadImm |>.w0 |>.len 0,
  xop8 0xc1 .vprotw xmmLoadImm |>.w0 |>.len 0,
  xop8 0xc2 .vprotd xmmLoadImm |>.w0 |>.len 0,
  xop8 0xc3 .vprotq xmmLoadImm |>.w0 |>.len 0,
  xop8 0xcc .vpcomb [wr .vecReg .b128, rd .vecV .b128, rd .vecRm .b128, rd .imm .b8] |>.w0
    |>.len 0 |>.predicate .xop,
  xop8 0xcd .vpcomw [wr .vecReg .b128, rd .vecV .b128, rd .vecRm .b128, rd .imm .b8] |>.w0
    |>.len 0 |>.predicate .xop,
  xop8 0xce .vpcomd [wr .vecReg .b128, rd .vecV .b128, rd .vecRm .b128, rd .imm .b8] |>.w0
    |>.len 0 |>.predicate .xop,
  xop8 0xcf .vpcomq [wr .vecReg .b128, rd .vecV .b128, rd .vecRm .b128, rd .imm .b8] |>.w0
    |>.len 0 |>.predicate .xop,
  xop8 0xec .vpcomub [wr .vecReg .b128, rd .vecV .b128, rd .vecRm .b128, rd .imm .b8] |>.w0
    |>.len 0 |>.predicate .xop,
  xop8 0xed .vpcomuw [wr .vecReg .b128, rd .vecV .b128, rd .vecRm .b128, rd .imm .b8] |>.w0
    |>.len 0 |>.predicate .xop,
  xop8 0xee .vpcomud [wr .vecReg .b128, rd .vecV .b128, rd .vecRm .b128, rd .imm .b8] |>.w0
    |>.len 0 |>.predicate .xop,
  xop8 0xef .vpcomuq [wr .vecReg .b128, rd .vecV .b128, rd .vecRm .b128, rd .imm .b8] |>.w0
    |>.len 0 |>.predicate .xop,
  xop9 0x80 .vfrczps vecLoad |>.w0,
  xop9 0x81 .vfrczpd vecLoad |>.w0,
  xop9 0x82 .vfrczss [wr .vecReg .b128, rd .vecRm .b32] |>.w0 |>.len 0,
  xop9 0x83 .vfrczsd [wr .vecReg .b128, rd .vecRm .b64] |>.w0 |>.len 0,
  xop9 0xc1 .vphaddbw xmmLoad |>.w0 |>.len 0,
  xop9 0xc2 .vphaddbd xmmLoad |>.w0 |>.len 0,
  xop9 0xc3 .vphaddbq xmmLoad |>.w0 |>.len 0,
  xop9 0xc6 .vphaddwd xmmLoad |>.w0 |>.len 0,
  xop9 0xc7 .vphaddwq xmmLoad |>.w0 |>.len 0,
  xop9 0xcb .vphadddq xmmLoad |>.w0 |>.len 0,
  xop9 0xd1 .vphaddubw xmmLoad |>.w0 |>.len 0,
  xop9 0xd2 .vphaddubd xmmLoad |>.w0 |>.len 0,
  xop9 0xd3 .vphaddubq xmmLoad |>.w0 |>.len 0,
  xop9 0xd6 .vphadduwd xmmLoad |>.w0 |>.len 0,
  xop9 0xd7 .vphadduwq xmmLoad |>.w0 |>.len 0,
  xop9 0xdb .vphaddudq xmmLoad |>.w0 |>.len 0,
  xop9 0xe1 .vphsubbw xmmLoad |>.w0 |>.len 0,
  xop9 0xe2 .vphsubwd xmmLoad |>.w0 |>.len 0,
  xop9 0xe3 .vphsubdq xmmLoad |>.w0 |>.len 0,
  xopA 0x10 .bextr [wr .reg .y, rd .rm .y, rd .imm .b32] |>.len 0 |>.flags bmi
    |>.inGroups [.xop, .bmi]]

/-- Shifts by a vector of counts. The W bit tells which of r/m and vvvv holds the counts. -/
def xopShifts : List Row :=
  List.flatMap (fun (opcode, m) => [
    xop9 opcode m [wr .vecReg .b128, rd .vecRm .b128, rd .vecV .b128] |>.w0 |>.len 0,
    xop9 opcode m [wr .vecReg .b128, rd .vecV .b128, rd .vecRm .b128] |>.w1 |>.len 0]) [
    (0x90, .vprotb), (0x91, .vprotw), (0x92, .vprotd), (0x93, .vprotq), (0x94, .vpshlb),
    (0x95, .vpshlw), (0x96, .vpshld), (0x97, .vpshlq), (0x98, .vpshab), (0x99, .vpshaw),
    (0x9a, .vpshad), (0x9b, .vpshaq)]

/-- Vector instructions in the XOP encoding. -/
def xop : List Row :=
  xopRows ++ xopShifts

end MachineCode.X86.Table
