import MachineCode.X86.Table.Shape

/-!
# Integer arithmetic and logic

The classic two-operand instructions come in six register and memory forms and
three immediate forms each; the others are listed one by one.
-/

namespace MachineCode.X86.Table

open Row Slot FlagEffects

/-- The six forms of a two-operand instruction, with consecutive opcodes. -/
def binary (base : UInt8) (m : Mnemonic) (effects : BitVec 64) (dest : Source → Size → Slot) :
    List Row := [
  primary base m [dest .rm .b8, rd .reg .b8] |>.flags effects,
  primary (base + 1) m [dest .rm .v, rd .reg .v] |>.flags effects,
  primary (base + 2) m [dest .reg .b8, rd .rm .b8] |>.flags effects,
  primary (base + 3) m [dest .reg .v, rd .rm .v] |>.flags effects,
  primary (base + 4) m [dest .accumulator .b8, rd .imm .b8] |>.flags effects,
  primary (base + 5) m [dest .accumulator .v, rd .signedImm .z] |>.flags effects]

/-- The three forms with an immediate, told apart from others by an opcode extension. -/
def withImmediate (extension : UInt8) (m : Mnemonic) (effects : BitVec 64)
    (dest : Source → Size → Slot) : List Row := [
  primary 0x80 m [dest .rm .b8, rd .imm .b8] |>.digit extension |>.flags effects,
  primary 0x81 m [dest .rm .v, rd .signedImm .z] |>.digit extension |>.flags effects,
  primary 0x83 m [dest .rm .v, rd .signedImm .b8] |>.digit extension |>.flags effects]

/-- Two-operand arithmetic and logic. -/
def twoOperand : List Row :=
  binary 0x00 .add arith rw ++ withImmediate 0 .add arith rw
    ++ binary 0x08 .or logic rw ++ withImmediate 1 .or logic rw
    ++ binary 0x10 .adc arithCarry rw ++ withImmediate 2 .adc arithCarry rw
    ++ binary 0x18 .sbb arithCarry rw ++ withImmediate 3 .sbb arithCarry rw
    ++ binary 0x20 .and logic rw ++ withImmediate 4 .and logic rw
    ++ binary 0x28 .sub arith rw ++ withImmediate 5 .sub arith rw
    ++ binary 0x30 .xor logic rw ++ withImmediate 6 .xor logic rw
    ++ binary 0x38 .cmp arith rd ++ withImmediate 7 .cmp arith rd

/-- Test, increment, negation, multiplication, division, decimal adjustment, exchange and add. -/
def arithmeticRest : List Row := [
  primary 0x27 .daa [] |>.not64 |>.flags decimal |>.updates [.reg .al],
  primary 0x2f .das [] |>.not64 |>.flags decimal |>.updates [.reg .al],
  primary 0x37 .aaa [] |>.not64 |>.flags asciiAdjust |>.reads [.reg .al] |>.writes [.reg .ax],
  primary 0x3f .aas [] |>.not64 |>.flags asciiAdjust |>.reads [.reg .al] |>.writes [.reg .ax],
  primary 0x40 .inc [rw .opcodeReg .v] |>.plusReg |>.not64 |>.flags incdec,
  primary 0x48 .dec [rw .opcodeReg .v] |>.plusReg |>.not64 |>.flags incdec,
  primary 0x69 .imul [wr .reg .v, rd .rm .v, rd .signedImm .z] |>.flags mul,
  primary 0x6b .imul [wr .reg .v, rd .rm .v, rd .signedImm .b8] |>.flags mul,
  primary 0x82 .add [rw .rm .b8, rd .imm .b8] |>.digit 0 |>.not64 |>.flags arith,
  primary 0x82 .or [rw .rm .b8, rd .imm .b8] |>.digit 1 |>.not64 |>.flags logic,
  primary 0x82 .adc [rw .rm .b8, rd .imm .b8] |>.digit 2 |>.not64 |>.flags arithCarry,
  primary 0x82 .sbb [rw .rm .b8, rd .imm .b8] |>.digit 3 |>.not64 |>.flags arithCarry,
  primary 0x82 .and [rw .rm .b8, rd .imm .b8] |>.digit 4 |>.not64 |>.flags logic,
  primary 0x82 .sub [rw .rm .b8, rd .imm .b8] |>.digit 5 |>.not64 |>.flags arith,
  primary 0x82 .xor [rw .rm .b8, rd .imm .b8] |>.digit 6 |>.not64 |>.flags logic,
  primary 0x82 .cmp [rd .rm .b8, rd .imm .b8] |>.digit 7 |>.not64 |>.flags arith,
  primary 0x84 .test [rd .rm .b8, rd .reg .b8] |>.flags logic,
  primary 0x85 .test [rd .rm .v, rd .reg .v] |>.flags logic,
  primary 0xa8 .test [rd .accumulator .b8, rd .imm .b8] |>.flags logic,
  primary 0xa9 .test [rd .accumulator .v, rd .signedImm .z] |>.flags logic,
  primary 0xd4 .aam [rd .imm .b8] |>.not64 |>.flags asciiMuldiv |>.reads [.reg .al]
    |>.writes [.reg .ax],
  primary 0xd5 .aad [rd .imm .b8] |>.not64 |>.flags asciiMuldiv |>.updates [.reg .ax],
  primary 0xf6 .test [rd .rm .b8, rd .imm .b8] |>.digit 0 |>.flags logic,
  primary 0xf6 .test [rd .rm .b8, rd .imm .b8] |>.digit 1 |>.flags logic,
  primary 0xf6 .not [rw .rm .b8] |>.digit 2,
  primary 0xf6 .neg [rw .rm .b8] |>.digit 3 |>.flags arith,
  primary 0xf6 .mul [rd .rm .b8] |>.digit 4 |>.flags mul |>.reads [.reg .al] |>.writes [.reg .ax],
  primary 0xf6 .imul [rd .rm .b8] |>.digit 5 |>.flags mul |>.reads [.reg .al] |>.writes [.reg .ax],
  primary 0xf6 .div [rd .rm .b8] |>.digit 6 |>.flags div |>.updates [.reg .ax],
  primary 0xf6 .idiv [rd .rm .b8] |>.digit 7 |>.flags div |>.updates [.reg .ax],
  primary 0xf7 .test [rd .rm .v, rd .signedImm .z] |>.digit 0 |>.flags logic,
  primary 0xf7 .test [rd .rm .v, rd .signedImm .z] |>.digit 1 |>.flags logic,
  primary 0xf7 .not [rw .rm .v] |>.digit 2,
  primary 0xf7 .neg [rw .rm .v] |>.digit 3 |>.flags arith,
  primary 0xf7 .mul [rd .rm .v] |>.digit 4 |>.flags mul |>.reads [.ax] |>.writes [.ax, .dx],
  primary 0xf7 .imul [rd .rm .v] |>.digit 5 |>.flags mul |>.reads [.ax] |>.writes [.ax, .dx],
  primary 0xf7 .div [rd .rm .v] |>.digit 6 |>.flags div |>.updates [.ax, .dx],
  primary 0xf7 .idiv [rd .rm .v] |>.digit 7 |>.flags div |>.updates [.ax, .dx],
  primary 0xfe .inc [rw .rm .b8] |>.digit 0 |>.flags incdec,
  primary 0xfe .dec [rw .rm .b8] |>.digit 1 |>.flags incdec,
  primary 0xff .inc [rw .rm .v] |>.digit 0 |>.flags incdec,
  primary 0xff .dec [rw .rm .v] |>.digit 1 |>.flags incdec,
  after0F 0xaf .imul [rw .reg .v, rd .rm .v] |>.flags mul,
  after0F 0xb0 .cmpxchg [rw .rm .b8, rd .reg .b8] |>.flags arith |>.updates [.reg .al],
  after0F 0xb1 .cmpxchg [rw .rm .v, rd .reg .v] |>.flags arith |>.updates [.ax],
  after0F 0xc0 .xadd [rw .rm .b8, rw .reg .b8] |>.flags arith,
  after0F 0xc1 .xadd [rw .rm .v, rw .reg .v] |>.flags arith,
  after0F 0xc7 .cmpxchg8b [rw .mem .b64] |>.digit 1 |>.memForm |>.w0 |>.flags cmpxchg8
    |>.reads [.reg .eax, .reg .edx, .reg .ebx, .reg .ecx] |>.writes [.reg .eax, .reg .edx],
  after0F 0xc7 .cmpxchg16b [rw .mem .b128] |>.digit 1 |>.memForm |>.w1 |>.flags cmpxchg8
    |>.reads [.reg .rax, .reg .rdx, .reg .rbx, .reg .rcx] |>.writes [.reg .rax, .reg .rdx],
  after0F38 0xf6 .adcx [rw .reg .y, rd .rm .y] |>.p66 |>.flags adcx |>.group .adx,
  after0F38 0xf6 .adox [rw .reg .y, rd .rm .y] |>.pF3 |>.flags adox |>.group .adx]

/-- Integer arithmetic and logic. -/
def arithmetic : List Row :=
  twoOperand ++ arithmeticRest

end MachineCode.X86.Table
