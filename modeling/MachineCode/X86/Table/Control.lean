import MachineCode.X86.Table.Shape

/-!
# Control flow

Jumps, calls, returns, loops and interrupts. Near transfers have an operand size
of 64 bits in 64-bit mode.
-/

namespace MachineCode.X86.Table

open Row Slot FlagEffects

/-- Jumps, calls, returns, loops and interrupts. -/
def transfers : List Row := [
  primary 0x9a .lcall [rd .farPointer .unsized] |>.not64 |>.updates [.sp] |>.group .call,
  primary 0xc2 .ret [rd .imm .b16] |>.updates [.sp] |>.group .ret |>.force64,
  primary 0xc3 .ret [] |>.updates [.sp] |>.group .ret |>.force64,
  primary 0xca .retf [rd .imm .b16] |>.updates [.sp] |>.group .ret,
  primary 0xcb .retf [] |>.updates [.sp] |>.group .ret,
  primary 0xcc .int3 [] |>.flags interrupt |>.updates [.sp] |>.group .int,
  primary 0xcd .int [rd .imm .b8] |>.flags interrupt |>.updates [.sp] |>.group .int,
  primary 0xce .into [] |>.not64 |>.flags into |>.updates [.sp] |>.group .int,
  primary 0xcf .iretd [] |>.flags allPrior |>.updates [.sp] |>.group .iret
    |>.byOperandSize .iret .iretd .iretq,
  primary 0xe0 .loopne [rd .rel .b8] |>.flags loopcc |>.updates [.cx] |>.group .jump |>.force64,
  primary 0xe1 .loope [rd .rel .b8] |>.flags loopcc |>.updates [.cx] |>.group .jump |>.force64,
  primary 0xe2 .loop [rd .rel .b8] |>.updates [.cx] |>.group .jump |>.force64,
  primary 0xe3 .jecxz [rd .rel .b8] |>.reads [.cx] |>.group .jump |>.force64
    |>.byAddressSize .jcxz .jecxz .jrcxz,
  primary 0xe8 .call [rd .rel .z] |>.reads [.sp, .ip] |>.writes [.sp] |>.group .call |>.force64,
  primary 0xe9 .jmp [rd .rel .z] |>.group .jump |>.force64,
  primary 0xea .ljmp [rd .farPointer .unsized] |>.not64 |>.group .jump,
  primary 0xeb .jmp [rd .rel .b8] |>.group .jump |>.force64,
  primary 0xf1 .int1 [] |>.flags interrupt |>.group .int,
  primary 0xff .call [rd .rm .v] |>.digit 2 |>.reads [.sp, .ip] |>.writes [.sp] |>.group .call
    |>.force64,
  primary 0xff .lcall [rd .mem .far] |>.digit 3 |>.memForm |>.updates [.sp] |>.group .call,
  primary 0xff .jmp [rd .rm .v] |>.digit 4 |>.group .jump |>.force64,
  primary 0xff .ljmp [rd .mem .far] |>.digit 5 |>.memForm |>.group .jump,
  after0F 0x34 .sysenter [] |>.group .int]

/-- Conditional jumps, in the order of the conditions. -/
def conditionalJumps : List Mnemonic := [
  .jo, .jno, .jb, .jae, .je, .jne, .jbe, .ja, .js, .jns, .jp, .jnp, .jl, .jge, .jle, .jg]

/-- Conditional jumps with an 8-bit displacement. -/
def shortJumps : List Row :=
  onConditions 0x70 (fun opcode m => primary opcode m [rd .rel .b8] |>.group .jump |>.force64)
    conditionalJumps

/-- Conditional jumps with a full displacement. -/
def nearJumps : List Row :=
  onConditions 0x80 (fun opcode m => after0F opcode m [rd .rel .z] |>.group .jump |>.force64)
    conditionalJumps

/-- Control flow. -/
def control : List Row :=
  transfers ++ shortJumps ++ nearJumps

end MachineCode.X86.Table
