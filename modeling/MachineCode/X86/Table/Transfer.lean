import MachineCode.X86.Table.Shape

/-!
# Data transfer

Moves, the stack, exchanges, conversions between sizes, and input and output.
-/

namespace MachineCode.X86.Table

open Row Slot FlagEffects

/-- Moves, pushes, pops, exchanges, input, output and flag transfers. -/
def moves : List Row := [
  primary 0x06 .push [rd (.fixed .es) .b16] |>.not64 |>.updates [.sp],
  primary 0x07 .pop [wr (.fixed .es) .b16] |>.not64 |>.updates [.sp],
  primary 0x0e .push [rd (.fixed .cs) .b16] |>.not64 |>.updates [.sp],
  primary 0x16 .push [rd (.fixed .ss) .b16] |>.not64 |>.updates [.sp],
  primary 0x17 .pop [wr (.fixed .ss) .b16] |>.not64 |>.updates [.sp],
  primary 0x1e .push [rd (.fixed .ds) .b16] |>.not64 |>.updates [.sp],
  primary 0x1f .pop [wr (.fixed .ds) .b16] |>.not64 |>.updates [.sp],
  primary 0x50 .push [rd .opcodeReg .v] |>.plusReg |>.updates [.sp] |>.default64,
  primary 0x58 .pop [wr .opcodeReg .v] |>.plusReg |>.updates [.sp] |>.default64,
  primary 0x60 .pushal [] |>.not64 |>.updates [.sp] |>.byOperandSize .pushaw .pushal .pushal,
  primary 0x61 .popal [] |>.not64 |>.updates [.sp] |>.byOperandSize .popaw .popal .popal,
  primary 0x63 .movsxd [wr .reg .v, rd .rm .b32] |>.only64,
  primary 0x68 .push [rd .signedImm .z] |>.updates [.sp] |>.default64,
  primary 0x6a .push [rd .signedImm .b8] |>.updates [.sp] |>.default64,
  primary 0x86 .xchg [rw .rm .b8, rw .reg .b8],
  primary 0x87 .xchg [rw .rm .v, rw .reg .v],
  primary 0x88 .mov [wr .rm .b8, rd .reg .b8],
  primary 0x89 .mov [wr .rm .v, rd .reg .v],
  primary 0x8a .mov [wr .reg .b8, rd .rm .b8],
  primary 0x8b .mov [wr .reg .v, rd .rm .v],
  primary 0x8c .mov [wr .mem .b16, rd .segmentReg .b16] |>.memForm,
  primary 0x8c .mov [wr .rmReg .v, rd .segmentReg .b16] |>.regForm,
  primary 0x8d .lea [wr .reg .v, ea .mem .unsized] |>.memForm,
  primary 0x8e .mov [wr .segmentReg .b16, rd .rm .b16],
  primary 0x8f .pop [wr .rm .v] |>.digit 0 |>.updates [.sp] |>.default64,
  primary 0x90 .xchg [rw .opcodeReg .v, rw .accumulator .v] |>.plusReg,
  primary 0x98 .cwde [] |>.updates [.ax] |>.byOperandSize .cbw .cwde .cdqe,
  primary 0x99 .cdq [] |>.reads [.ax] |>.writes [.dx] |>.byOperandSize .cwd .cdq .cqo,
  primary 0x9c .pushfd [] |>.flags allTest |>.updates [.sp] |>.default64
    |>.byOperandSize .pushf .pushfd .pushfq,
  primary 0x9d .popfd [] |>.flags allPrior |>.updates [.sp] |>.default64
    |>.byOperandSize .popf .popfd .popfq,
  primary 0x9e .sahf [] |>.flags sahf |>.reads [.reg .ah],
  primary 0x9f .lahf [] |>.flags allTest |>.writes [.reg .ah],
  primary 0xa0 .mov [wr .accumulator .b8, rd .offset .b8] |>.not64,
  primary 0xa1 .mov [wr .accumulator .v, rd .offset .v] |>.not64,
  primary 0xa2 .mov [wr .offset .b8, rd .accumulator .b8] |>.not64,
  primary 0xa3 .mov [wr .offset .v, rd .accumulator .v] |>.not64,
  primary 0xa0 .movabs [wr .accumulator .b8, rd .offset .b8] |>.only64,
  primary 0xa1 .movabs [wr .accumulator .v, rd .offset .v] |>.only64,
  primary 0xa2 .movabs [wr .offset .b8, rd .accumulator .b8] |>.only64,
  primary 0xa3 .movabs [wr .offset .v, rd .accumulator .v] |>.only64,
  primary 0xb0 .mov [wr .opcodeReg .b8, rd .imm .b8] |>.plusReg,
  primary 0xb8 .mov [wr .opcodeReg .v, rd .imm .v] |>.plusReg,
  primary 0xb8 .movabs [wr .opcodeReg .v, rd .imm .v] |>.plusReg |>.w1 |>.only64,
  primary 0xc4 .les [wr .reg .z, rd .mem .far] |>.memForm |>.not64,
  primary 0xc5 .lds [wr .reg .z, rd .mem .far] |>.memForm |>.not64,
  primary 0xc6 .mov [wr .rm .b8, rd .imm .b8] |>.digit 0,
  primary 0xc7 .mov [wr .rm .v, rd .signedImm .z] |>.digit 0,
  primary 0xc8 .enter [rd .imm .b16, rd .imm .b8] |>.updates [.sp, .bp] |>.default64,
  primary 0xc9 .leave [] |>.updates [.sp, .bp] |>.default64,
  primary 0xd6 .salc [] |>.not64 |>.flags salc |>.writes [.reg .al],
  primary 0xd7 .xlatb [] |>.reads [.reg .al, .reg .rbx] |>.writes [.reg .al],
  primary 0xe4 .inPort [wr .accumulator .b8, rd .imm .b8],
  primary 0xe5 .inPort [wr .accumulator .z, rd .imm .b8],
  primary 0xe6 .outPort [rd .imm .b8, rd .accumulator .b8],
  primary 0xe7 .outPort [rd .imm .b8, rd .accumulator .z],
  primary 0xec .inPort [wr .accumulator .b8, rd (.fixed .dx) .b16],
  primary 0xed .inPort [wr .accumulator .z, rd (.fixed .dx) .b16],
  primary 0xee .outPort [rd (.fixed .dx) .b16, rd .accumulator .b8],
  primary 0xef .outPort [rd (.fixed .dx) .b16, rd .accumulator .z],
  primary 0xf5 .cmc [] |>.flags cmc,
  primary 0xf8 .clc [] |>.flags clc,
  primary 0xf9 .stc [] |>.flags stc,
  primary 0xfc .cld [] |>.flags cld,
  primary 0xfd .std [] |>.flags stdSet,
  primary 0xff .push [rd .rm .v] |>.digit 6 |>.updates [.sp] |>.default64,
  after0F 0xa0 .push [rd (.fixed .fs) .b16] |>.updates [.sp] |>.default64,
  after0F 0xa1 .pop [wr (.fixed .fs) .b16] |>.updates [.sp] |>.default64,
  after0F 0xa8 .push [rd (.fixed .gs) .b16] |>.updates [.sp] |>.default64,
  after0F 0xa9 .pop [wr (.fixed .gs) .b16] |>.updates [.sp] |>.default64,
  after0F 0xb2 .lss [wr .reg .z, rd .mem .far] |>.memForm,
  after0F 0xb4 .lfs [wr .reg .z, rd .mem .far] |>.memForm,
  after0F 0xb5 .lgs [wr .reg .z, rd .mem .far] |>.memForm,
  after0F 0xb6 .movzx [wr .reg .v, rd .rm .b8],
  after0F 0xb7 .movzx [wr .reg .v, rd .rm .b16],
  after0F 0xbe .movsx [wr .reg .v, rd .rm .b8],
  after0F 0xbf .movsx [wr .reg .v, rd .rm .b16]]

/-- Byte set on condition. -/
def setOnCondition : List Row :=
  onConditions 0x90 (fun opcode m => after0F opcode m [wr .rm .b8]) [
    .seto, .setno, .setb, .setae, .sete, .setne, .setbe, .seta, .sets, .setns, .setp, .setnp,
    .setl, .setge, .setle, .setg]

/-- Move on condition. -/
def moveOnCondition : List Row :=
  onConditions 0x40 (fun opcode m => after0F opcode m [wr .reg .v, rd .rm .v] |>.group .cmov) [
    .cmovo, .cmovno, .cmovb, .cmovae, .cmove, .cmovne, .cmovbe, .cmova, .cmovs, .cmovns, .cmovp,
    .cmovnp, .cmovl, .cmovge, .cmovle, .cmovg]

/-- Data transfer. -/
def transfer : List Row :=
  moves ++ setOnCondition ++ moveOnCondition

end MachineCode.X86.Table
