import MachineCode.X86.Table.Shape

/-!
# Opmask registers

Moves, logic, shifts and tests on mask registers, in four widths that W and the
mandatory prefix select.
-/

namespace MachineCode.X86.Table

open Row Slot FlagEffects

/-- Destination and two source masks. -/
def maskBinary : List Slot :=
  [wr .maskReg .b64, rd .maskV .b64, rd .maskRm .b64]

/-- Destination and one source mask. -/
def maskUnary : List Slot :=
  [wr .maskReg .b64, rd .maskRm .b64]

/-- Two masks that are only tested. -/
def maskTest : List Slot :=
  [rd .maskReg .b64, rd .maskRm .b64]

/-- The word, byte, quadword and doubleword rows of a mask instruction. -/
def maskRows (opcode : UInt8) (mw mb mq md : Mnemonic) (slots : List Slot) (l : UInt8) :
    List Row :=
  let row (m : Mnemonic) : Row := vex0F opcode m slots |>.regForm |>.len l |>.group .avx512
  [row mw |>.np |>.w0, row mb |>.p66 |>.w0, row mq |>.np |>.w1, row md |>.p66 |>.w1]

/-- Mask logic, addition and tests. -/
def maskLogic : List Row :=
  maskRows 0x41 .kandw .kandb .kandq .kandd maskBinary 1
    ++ maskRows 0x42 .kandnw .kandnb .kandnq .kandnd maskBinary 1
    ++ maskRows 0x44 .knotw .knotb .knotq .knotd maskUnary 0
    ++ maskRows 0x45 .korw .korb .korq .kord maskBinary 1
    ++ maskRows 0x46 .kxnorw .kxnorb .kxnorq .kxnord maskBinary 1
    ++ maskRows 0x47 .kxorw .kxorb .kxorq .kxord maskBinary 1
    ++ maskRows 0x4a .kaddw .kaddb .kaddq .kaddd maskBinary 1
    ++ (maskRows 0x98 .kortestw .kortestb .kortestq .kortestd maskTest 0).map (·.flags zfCf)
    ++ (maskRows 0x99 .ktestw .ktestb .ktestq .ktestd maskTest 0).map (·.flags zfCf)

/-- Mask moves. -/
def maskMoves : List Row := [
  vex0F 0x90 .kmovw [wr .maskReg .b16, rd .maskRm .b16] |>.np |>.w0 |>.len 0,
  vex0F 0x90 .kmovb [wr .maskReg .b8, rd .maskRm .b8] |>.p66 |>.w0 |>.len 0,
  vex0F 0x90 .kmovq [wr .maskReg .b64, rd .maskRm .b64] |>.np |>.w1 |>.len 0,
  vex0F 0x90 .kmovd [wr .maskReg .b32, rd .maskRm .b32] |>.p66 |>.w1 |>.len 0,
  vex0F 0x91 .kmovw [wr .mem .b16, rd .maskReg .b16] |>.np |>.memForm |>.w0 |>.len 0,
  vex0F 0x91 .kmovb [wr .mem .b8, rd .maskReg .b8] |>.p66 |>.memForm |>.w0 |>.len 0,
  vex0F 0x91 .kmovq [wr .mem .b64, rd .maskReg .b64] |>.np |>.memForm |>.w1 |>.len 0,
  vex0F 0x91 .kmovd [wr .mem .b32, rd .maskReg .b32] |>.p66 |>.memForm |>.w1 |>.len 0,
  vex0F 0x92 .kmovw [wr .maskReg .b16, rd .rmReg .b32] |>.np |>.regForm |>.w0 |>.len 0,
  vex0F 0x92 .kmovb [wr .maskReg .b8, rd .rmReg .b32] |>.p66 |>.regForm |>.w0 |>.len 0,
  vex0F 0x92 .kmovd [wr .maskReg .b32, rd .rmReg .b32] |>.pF2 |>.regForm |>.w0 |>.len 0,
  vex0F 0x92 .kmovq [wr .maskReg .b64, rd .rmReg .b64] |>.pF2 |>.regForm |>.w1 |>.len 0,
  vex0F 0x93 .kmovw [wr .reg .b32, rd .maskRm .b16] |>.np |>.regForm |>.w0 |>.len 0,
  vex0F 0x93 .kmovb [wr .reg .b32, rd .maskRm .b8] |>.p66 |>.regForm |>.w0 |>.len 0,
  vex0F 0x93 .kmovd [wr .reg .b32, rd .maskRm .b32] |>.pF2 |>.regForm |>.w0 |>.len 0,
  vex0F 0x93 .kmovq [wr .reg .b64, rd .maskRm .b64] |>.pF2 |>.regForm |>.w1 |>.len 0]

/-- Opmask instructions. -/
def opmask : List Row :=
  maskLogic ++ maskMoves

end MachineCode.X86.Table
