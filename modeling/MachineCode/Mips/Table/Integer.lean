import MachineCode.Mips.Table.Shape

/-!
# Integer instructions

Arithmetic, logic, shifts, bit fields, multiplication and division. Aliases such
as `move` and `nop` fix more bits than the instruction they stand for.
-/

namespace MachineCode.Mips.Table

open Row Slot

/-- Shifts and rotates, with the special forms of a shift that does nothing. -/
def shiftRows : List Row := [
  of 0xffffffff 0 .nop [],
  of 0xffffffff 0x40 .ssnop [],
  of 0xffffffff 0xc0 .ehb [] |>.rel2,
  of 0xffffffff 0x140 .pause [] |>.rel2,
  special 0x00 .sll shiftImm |>.fix rsField 0,
  special 0x02 .srl shiftImm |>.fix rsField 0,
  special 0x02 .rotr shiftImm |>.fix rsField 0x00200000 |>.rel2,
  special 0x03 .sra shiftImm |>.fix rsField 0,
  special 0x04 .sllv shiftReg |>.fix saField 0,
  special 0x06 .srlv shiftReg |>.fix saField 0,
  special 0x06 .rotrv shiftReg |>.fix saField 0x40 |>.rel2,
  special 0x07 .srav shiftReg |>.fix saField 0,
  special 0x05 .lsa [set .rd, use .rs, use .rt, note .shiftMinus1] |>.fix 0x700 0 |>.r6,
  special 0x15 .dlsa [set .rd, use .rs, use .rt, note .shiftMinus1] |>.fix 0x700 0 |>.r6 |>.only64,
  special 0x38 .dsll shiftImm |>.fix rsField 0 |>.only64,
  special 0x3a .dsrl shiftImm |>.fix rsField 0 |>.only64,
  special 0x3a .drotr shiftImm |>.fix rsField 0x00200000 |>.only64 |>.rel2,
  special 0x3b .dsra shiftImm |>.fix rsField 0 |>.only64,
  special 0x3c .dsll32 shiftImm |>.fix rsField 0 |>.only64,
  special 0x3e .dsrl32 shiftImm |>.fix rsField 0 |>.only64,
  special 0x3e .drotr32 shiftImm |>.fix rsField 0x00200000 |>.only64 |>.rel2,
  special 0x3f .dsra32 shiftImm |>.fix rsField 0 |>.only64]

/-- Register arithmetic and logic with its aliases, conditional moves and immediate forms. -/
def aluRows : List Row := [
  special 0x20 .add threeRegs |>.fix saField 0,
  special 0x21 .addu threeRegs |>.fix saField 0,
  special 0x22 .sub threeRegs |>.fix saField 0,
  special 0x23 .subu threeRegs |>.fix saField 0,
  special 0x24 .and threeRegs |>.fix saField 0,
  special 0x25 .or threeRegs |>.fix saField 0,
  special 0x26 .xor threeRegs |>.fix saField 0,
  special 0x27 .nor threeRegs |>.fix saField 0,
  special 0x2a .slt threeRegs |>.fix saField 0,
  special 0x2b .sltu threeRegs |>.fix saField 0,
  special 0x2c .dadd threeRegs |>.fix saField 0 |>.only64,
  special 0x2d .daddu threeRegs |>.fix saField 0 |>.only64,
  special 0x2e .dsub threeRegs |>.fix saField 0 |>.only64,
  special 0x2f .dsubu threeRegs |>.fix saField 0 |>.only64,
  special 0x21 .move rdRs |>.fix (rtField ||| saField) 0,
  special 0x25 .move rdRs |>.fix (rtField ||| saField) 0,
  special 0x2d .move rdRs |>.fix (rtField ||| saField) 0 |>.only64,
  special 0x22 .neg rdRt |>.fix (rsField ||| saField) 0,
  special 0x23 .negu rdRt |>.fix (rsField ||| saField) 0,
  special 0x2f .dnegu rdRt |>.fix (rsField ||| saField) 0 |>.only64,
  special 0x27 .not rdRs |>.fix (rtField ||| saField) 0,
  special 0x0a .movz threeRegs |>.fix saField 0 |>.beforeR6,
  special 0x0b .movn threeRegs |>.fix saField 0 |>.beforeR6,
  special 0x35 .seleqz threeRegs |>.fix saField 0 |>.r6,
  special 0x37 .selnez threeRegs |>.fix saField 0 |>.r6,
  primary 0x08 .addi immSigned |>.beforeR6,
  primary 0x09 .addiu immSigned,
  primary 0x0a .slti immSigned,
  primary 0x0b .sltiu immSigned,
  primary 0x0c .andi immUnsigned,
  primary 0x0d .ori immUnsigned,
  primary 0x0e .xori immUnsigned,
  primary 0x0f .lui [set .rt, use .unsignedImm] |>.fix rsField 0,
  primary 0x0f .aui immUnsigned |>.r6,
  primary 0x18 .daddi immSigned |>.beforeR6 |>.only64,
  primary 0x19 .daddiu immSigned |>.only64,
  of 0xfc180000 0xec000000 .addiupc [set .rs, use .pc19] |>.r6,
  of 0xfc1f0000 0xec1e0000 .auipc [set .rs, use .unsignedImm] |>.r6,
  of 0xfc1f0000 0xec1f0000 .aluipc [set .rs, use .unsignedImm] |>.r6]

/-- Multiplication, division, the `hi` and `lo` registers, and leading bit counts. -/
def multiplyRows : List Row := [
  special 0x10 .mfhi [set .rd] |>.fix (rsField ||| rtField ||| saField) 0 |>.beforeR6
    |>.reads [.hi],
  special 0x11 .mthi [use .rs] |>.fix (rtField ||| rdField ||| saField) 0 |>.beforeR6
    |>.writes [.hi],
  special 0x12 .mflo [set .rd] |>.fix (rsField ||| rtField ||| saField) 0 |>.beforeR6
    |>.reads [.lo],
  special 0x13 .mtlo [use .rs] |>.fix (rtField ||| rdField ||| saField) 0 |>.beforeR6
    |>.writes [.lo],
  special 0x10 .clz rdRs |>.fix (rtField ||| saField) 0x40 |>.r6 |>.inGroups [.bitCount],
  special 0x11 .clo rdRs |>.fix (rtField ||| saField) 0x40 |>.r6 |>.inGroups [.bitCount],
  special 0x12 .dclz rdRs |>.fix (rtField ||| saField) 0x40 |>.r6 |>.only64
    |>.inGroups [.bitCount],
  special 0x13 .dclo rdRs |>.fix (rtField ||| saField) 0x40 |>.r6 |>.only64
    |>.inGroups [.bitCount],
  special 0x14 .dsllv shiftReg |>.fix saField 0 |>.only64,
  special 0x16 .dsrlv shiftReg |>.fix saField 0 |>.only64,
  special 0x16 .drotrv shiftReg |>.fix saField 0x40 |>.only64 |>.rel2,
  special 0x17 .dsrav shiftReg |>.fix saField 0 |>.only64,
  special 0x18 .mult rsRt |>.fix (rdField ||| saField) 0 |>.beforeR6 |>.writes [.hi, .lo],
  special 0x19 .multu rsRt |>.fix (rdField ||| saField) 0 |>.beforeR6 |>.writes [.hi, .lo],
  special 0x1a .div rsRt |>.fix (rdField ||| saField) 0 |>.beforeR6 |>.writes [.hi, .lo],
  special 0x1b .divu rsRt |>.fix (rdField ||| saField) 0 |>.beforeR6 |>.writes [.hi, .lo],
  special 0x1c .dmult rsRt |>.fix (rdField ||| saField) 0 |>.beforeR6 |>.only64
    |>.writes [.hi, .lo],
  special 0x1d .dmultu rsRt |>.fix (rdField ||| saField) 0 |>.beforeR6 |>.only64
    |>.writes [.hi, .lo],
  special 0x1e .ddiv rsRt |>.fix (rdField ||| saField) 0 |>.beforeR6 |>.only64
    |>.writes [.hi, .lo],
  special 0x1f .ddivu rsRt |>.fix (rdField ||| saField) 0 |>.beforeR6 |>.only64
    |>.writes [.hi, .lo],
  special 0x18 .mul threeRegs |>.fix saField 0x80 |>.r6,
  special 0x18 .muh threeRegs |>.fix saField 0xc0 |>.r6,
  special 0x19 .mulu threeRegs |>.fix saField 0x80 |>.r6,
  special 0x19 .muhu threeRegs |>.fix saField 0xc0 |>.r6,
  special 0x1a .div threeRegs |>.fix saField 0x80 |>.r6,
  special 0x1a .mod threeRegs |>.fix saField 0xc0 |>.r6,
  special 0x1b .divu threeRegs |>.fix saField 0x80 |>.r6,
  special 0x1b .modu threeRegs |>.fix saField 0xc0 |>.r6,
  special 0x1c .dmul threeRegs |>.fix saField 0x80 |>.r6 |>.only64,
  special 0x1c .dmuh threeRegs |>.fix saField 0xc0 |>.r6 |>.only64,
  special 0x1d .dmulu threeRegs |>.fix saField 0x80 |>.r6 |>.only64,
  special 0x1d .dmuhu threeRegs |>.fix saField 0xc0 |>.r6 |>.only64,
  special 0x1e .ddiv threeRegs |>.fix saField 0x80 |>.r6 |>.only64,
  special 0x1e .dmod threeRegs |>.fix saField 0xc0 |>.r6 |>.only64,
  special 0x1f .ddivu threeRegs |>.fix saField 0x80 |>.r6 |>.only64,
  special 0x1f .dmodu threeRegs |>.fix saField 0xc0 |>.r6 |>.only64,
  special2 0x00 .madd rsRt |>.fix (rdField ||| saField) 0 |>.beforeR6 |>.reads [.hi, .lo]
    |>.writes [.hi, .lo],
  special2 0x01 .maddu rsRt |>.fix (rdField ||| saField) 0 |>.beforeR6 |>.reads [.hi, .lo]
    |>.writes [.hi, .lo],
  special2 0x02 .mul threeRegs |>.fix saField 0 |>.beforeR6 |>.writes [.hi, .lo],
  special2 0x04 .msub rsRt |>.fix (rdField ||| saField) 0 |>.beforeR6 |>.reads [.hi, .lo]
    |>.writes [.hi, .lo],
  special2 0x05 .msubu rsRt |>.fix (rdField ||| saField) 0 |>.beforeR6 |>.reads [.hi, .lo]
    |>.writes [.hi, .lo],
  special2 0x20 .clz rdRs |>.fix saField 0 |>.beforeR6 |>.inGroups [.bitCount],
  special2 0x21 .clo rdRs |>.fix saField 0 |>.beforeR6 |>.inGroups [.bitCount],
  special2 0x24 .dclz rdRs |>.fix saField 0 |>.beforeR6 |>.only64 |>.inGroups [.bitCount],
  special2 0x25 .dclo rdRs |>.fix saField 0 |>.beforeR6 |>.only64 |>.inGroups [.bitCount]]

/-- Bit fields, byte swaps and sign extension. -/
def bitRows : List Row := [
  special3 0x00 .ext [set .rt, use .rs, note .bitPosition, note .extractSize] |>.rel2,
  special3 0x03 .dext [set .rt, use .rs, note .bitPosition, note .extractSize] |>.rel2 |>.only64,
  special3 0x04 .ins [update .rt, use .rs, note .bitPosition, note .insertSize] |>.rel2,
  special3 0x07 .dins [update .rt, use .rs, note .bitPosition, note .insertSize] |>.rel2 |>.only64,
  special3 0x20 .bitswap rdRt |>.fix (rsField ||| saField) 0 |>.r6,
  special3 0x20 .wsbh rdRt |>.fix (rsField ||| saField) 0x80 |>.rel2,
  special3 0x20 .seb rdRt |>.fix (rsField ||| saField) 0x400 |>.rel2,
  special3 0x20 .seh rdRt |>.fix (rsField ||| saField) 0x600 |>.rel2,
  special3 0x24 .dsbh rdRt |>.fix (rsField ||| saField) 0x80 |>.rel2 |>.only64,
  special3 0x24 .dshd rdRt |>.fix (rsField ||| saField) 0x140 |>.rel2 |>.only64]

/-- Integer instructions. -/
def integer : List Row :=
  shiftRows ++ aluRows ++ multiplyRows ++ bitRows

end MachineCode.Mips.Table
