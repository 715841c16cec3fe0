import MachineCode.Mips.Table.Shape

/-!
# Floating-point instructions

Arithmetic and conversions by format, compares by condition, moves to and from
the general registers, and branches on condition codes.
-/

namespace MachineCode.Mips.Table

open Row Slot

/-- Moves between register files. -/
def floatMoves : List Row := [
  floatMove 0x00 .mfc1 [set .rt, use .fs],
  floatMove 0x01 .dmfc1 [set .rt, use .fs] |>.only64,
  floatMove 0x02 .cfc1 [set .rt, note .rawRd],
  floatMove 0x03 .mfhc1 [set .rt, use .fs] |>.rel2,
  floatMove 0x04 .mtc1 [use .rt, set .fs],
  floatMove 0x05 .dmtc1 [use .rt, set .fs] |>.only64,
  floatMove 0x06 .ctc1 [use .rt, note .rawRd],
  floatMove 0x07 .mthc1 [use .rt, set .fs] |>.rel2]

/-- Arithmetic and rounding. -/
def floatArithmetic : List Row := [
  floatOp single 0x00 .addS float3,
  floatOp double 0x00 .addD float3,
  floatOp single 0x01 .subS float3,
  floatOp double 0x01 .subD float3,
  floatOp single 0x02 .mulS float3,
  floatOp double 0x02 .mulD float3,
  floatOp single 0x03 .divS float3,
  floatOp double 0x03 .divD float3,
  floatOp single 0x04 .sqrtS float2 |>.fix rtField 0,
  floatOp double 0x04 .sqrtD float2 |>.fix rtField 0,
  floatOp single 0x05 .absS float2 |>.fix rtField 0,
  floatOp double 0x05 .absD float2 |>.fix rtField 0,
  floatOp single 0x06 .movS float2 |>.fix rtField 0,
  floatOp double 0x06 .movD float2 |>.fix rtField 0,
  floatOp single 0x07 .negS float2 |>.fix rtField 0,
  floatOp double 0x07 .negD float2 |>.fix rtField 0,
  floatOp single 0x08 .roundLS float2 |>.fix rtField 0,
  floatOp double 0x08 .roundLD float2 |>.fix rtField 0,
  floatOp single 0x09 .truncLS float2 |>.fix rtField 0,
  floatOp double 0x09 .truncLD float2 |>.fix rtField 0,
  floatOp single 0x0a .ceilLS float2 |>.fix rtField 0,
  floatOp double 0x0a .ceilLD float2 |>.fix rtField 0,
  floatOp single 0x0b .floorLS float2 |>.fix rtField 0,
  floatOp double 0x0b .floorLD float2 |>.fix rtField 0,
  floatOp single 0x0c .roundWS float2 |>.fix rtField 0,
  floatOp double 0x0c .roundWD float2 |>.fix rtField 0,
  floatOp single 0x0d .truncWS float2 |>.fix rtField 0,
  floatOp double 0x0d .truncWD float2 |>.fix rtField 0,
  floatOp single 0x0e .ceilWS float2 |>.fix rtField 0,
  floatOp double 0x0e .ceilWD float2 |>.fix rtField 0,
  floatOp single 0x0f .floorWS float2 |>.fix rtField 0,
  floatOp double 0x0f .floorWD float2 |>.fix rtField 0]

/-- Conversions. -/
def floatConversions : List Row := [
  floatOp double 0x20 .cvtSD float2 |>.fix rtField 0,
  floatOp word 0x20 .cvtSW float2 |>.fix rtField 0,
  floatOp long 0x20 .cvtSL float2 |>.fix rtField 0,
  floatOp single 0x21 .cvtDS float2 |>.fix rtField 0,
  floatOp word 0x21 .cvtDW float2 |>.fix rtField 0,
  floatOp long 0x21 .cvtDL float2 |>.fix rtField 0,
  floatOp single 0x24 .cvtWS float2 |>.fix rtField 0,
  floatOp double 0x24 .cvtWD float2 |>.fix rtField 0,
  floatOp single 0x25 .cvtLS float2 |>.fix rtField 0,
  floatOp double 0x25 .cvtLD float2 |>.fix rtField 0]

/-- The sixteen comparisons into a condition code, which release 6 removed. -/
def conditionCompares (format : Word) (names : List Mnemonic) : List Row :=
  names.zipIdx.map fun (m, i) =>
    of 0xffe000ff (0x11 <<< 26 ||| format <<< 21 ||| 0x30 ||| BitVec.ofNat 32 i) m floatCompare
      |>.beforeR6

/-- The eight comparisons of release 6, which write a floating-point register. -/
def registerCompares (format : Word) (names : List Mnemonic) : List Row :=
  names.zipIdx.map fun (m, i) => floatOp format (BitVec.ofNat 32 i) m float3 |>.r6

/-- Comparisons. -/
def floatCompares : List Row :=
  conditionCompares single [
    .cFS, .cUnS, .cEqS, .cUeqS, .cOltS, .cUltS, .cOleS, .cUleS, .cSfS, .cNgleS, .cSeqS, .cNglS,
    .cLtS, .cNgeS, .cLeS, .cNgtS]
    ++ conditionCompares double [
    .cFD, .cUnD, .cEqD, .cUeqD, .cOltD, .cUltD, .cOleD, .cUleD, .cSfD, .cNgleD, .cSeqD, .cNglD,
    .cLtD, .cNgeD, .cLeD, .cNgtD]
    ++ registerCompares word [
    .cmpAfS, .cmpUnS, .cmpEqS, .cmpUeqS, .cmpLtS, .cmpUltS, .cmpLeS, .cmpUleS]
    ++ registerCompares long [
    .cmpAfD, .cmpUnD, .cmpEqD, .cmpUeqD, .cmpLtD, .cmpUltD, .cmpLeD, .cmpUleD]

/-- Floating-point instructions. -/
def float : List Row :=
  floatMoves ++ floatArithmetic ++ floatConversions ++ floatCompares

end MachineCode.Mips.Table
