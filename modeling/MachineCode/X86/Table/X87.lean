import MachineCode.X86.Table.Shape

/-!
# The floating-point stack

Eight escape opcodes. The register field of the ModRM byte selects the operation;
operations without operands take the whole byte.
-/

namespace MachineCode.X86.Table

open Row Slot FlagEffects

/-- A memory form with an opcode extension. -/
def x87Memory (opcode extension : UInt8) (m : Mnemonic) (slots : List Slot) : Row :=
  primary opcode m slots |>.digit extension |>.memForm |>.group .fpu

/-- A register form with an opcode extension. -/
def x87Register (opcode extension : UInt8) (m : Mnemonic) (slots : List Slot) : Row :=
  primary opcode m slots |>.digit extension |>.regForm |>.group .fpu

/-- A register form without operands, given by its whole ModRM byte. -/
def x87Exact (opcode byte : UInt8) (m : Mnemonic) : Row :=
  primary opcode m [] |>.modrm byte |>.group .fpu

/-- Memory forms. -/
def x87MemoryForms : List Row := [
  x87Memory 0xd8 0 .fadd [rd .mem .b32],
  x87Memory 0xd8 1 .fmul [rd .mem .b32],
  x87Memory 0xd8 2 .fcom [rd .mem .b32],
  x87Memory 0xd8 3 .fcomp [rd .mem .b32],
  x87Memory 0xd8 4 .fsub [rd .mem .b32],
  x87Memory 0xd8 5 .fsubr [rd .mem .b32],
  x87Memory 0xd8 6 .fdiv [rd .mem .b32],
  x87Memory 0xd8 7 .fdivr [rd .mem .b32],
  x87Memory 0xd9 0 .fld [rd .mem .b32],
  x87Memory 0xd9 2 .fst [wr .mem .b32],
  x87Memory 0xd9 3 .fstp [wr .mem .b32],
  x87Memory 0xd9 4 .fldenv [rd .mem .unsized],
  x87Memory 0xd9 5 .fldcw [rd .mem .b16],
  x87Memory 0xd9 6 .fnstenv [wr .mem .unsized],
  x87Memory 0xd9 7 .fnstcw [wr .mem .b16],
  x87Memory 0xda 0 .fiadd [rd .mem .b32],
  x87Memory 0xda 1 .fimul [rd .mem .b32],
  x87Memory 0xda 2 .ficom [rd .mem .b32],
  x87Memory 0xda 3 .ficomp [rd .mem .b32],
  x87Memory 0xda 4 .fisub [rd .mem .b32],
  x87Memory 0xda 5 .fisubr [rd .mem .b32],
  x87Memory 0xda 6 .fidiv [rd .mem .b32],
  x87Memory 0xda 7 .fidivr [rd .mem .b32],
  x87Memory 0xdb 0 .fild [rd .mem .b32],
  x87Memory 0xdb 1 .fisttp [wr .mem .b32],
  x87Memory 0xdb 2 .fist [wr .mem .b32],
  x87Memory 0xdb 3 .fistp [wr .mem .b32],
  x87Memory 0xdb 5 .fld [rd .mem .b80],
  x87Memory 0xdb 7 .fstp [wr .mem .b80],
  x87Memory 0xdc 0 .fadd [rd .mem .b64],
  x87Memory 0xdc 1 .fmul [rd .mem .b64],
  x87Memory 0xdc 2 .fcom [rd .mem .b64],
  x87Memory 0xdc 3 .fcomp [rd .mem .b64],
  x87Memory 0xdc 4 .fsub [rd .mem .b64],
  x87Memory 0xdc 5 .fsubr [rd .mem .b64],
  x87Memory 0xdc 6 .fdiv [rd .mem .b64],
  x87Memory 0xdc 7 .fdivr [rd .mem .b64],
  x87Memory 0xdd 0 .fld [rd .mem .b64],
  x87Memory 0xdd 1 .fisttp [wr .mem .b64],
  x87Memory 0xdd 2 .fst [wr .mem .b64],
  x87Memory 0xdd 3 .fstp [wr .mem .b64],
  x87Memory 0xdd 4 .frstor [rd .mem .unsized],
  x87Memory 0xdd 6 .fnsave [wr .mem .unsized],
  x87Memory 0xdd 7 .fnstsw [wr .mem .b16],
  x87Memory 0xde 0 .fiadd [rd .mem .b16],
  x87Memory 0xde 1 .fimul [rd .mem .b16],
  x87Memory 0xde 2 .ficom [rd .mem .b16],
  x87Memory 0xde 3 .ficomp [rd .mem .b16],
  x87Memory 0xde 4 .fisub [rd .mem .b16],
  x87Memory 0xde 5 .fisubr [rd .mem .b16],
  x87Memory 0xde 6 .fidiv [rd .mem .b16],
  x87Memory 0xde 7 .fidivr [rd .mem .b16],
  x87Memory 0xdf 0 .fild [rd .mem .b16],
  x87Memory 0xdf 1 .fisttp [wr .mem .b16],
  x87Memory 0xdf 2 .fist [wr .mem .b16],
  x87Memory 0xdf 3 .fistp [wr .mem .b16],
  x87Memory 0xdf 4 .fbld [rd .mem .b80],
  x87Memory 0xdf 5 .fild [rd .mem .b64],
  x87Memory 0xdf 6 .fbstp [wr .mem .b80],
  x87Memory 0xdf 7 .fistp [wr .mem .b64]]

/-- Register forms. -/
def x87RegisterForms : List Row := [
  x87Register 0xd8 0 .fadd [rw .stackTop .b80, rd .stackRm .b80],
  x87Register 0xd8 1 .fmul [rw .stackTop .b80, rd .stackRm .b80],
  x87Register 0xd8 2 .fcom [rd .stackRm .b80],
  x87Register 0xd8 3 .fcomp [rd .stackRm .b80],
  x87Register 0xd8 4 .fsub [rw .stackTop .b80, rd .stackRm .b80],
  x87Register 0xd8 5 .fsubr [rw .stackTop .b80, rd .stackRm .b80],
  x87Register 0xd8 6 .fdiv [rw .stackTop .b80, rd .stackRm .b80],
  x87Register 0xd8 7 .fdivr [rw .stackTop .b80, rd .stackRm .b80],
  x87Register 0xd9 0 .fld [rd .stackRm .b80],
  x87Register 0xd9 1 .fxch [rw .stackRm .b80],
  x87Exact 0xd9 0xd0 .fnop,
  x87Exact 0xd9 0xe0 .fchs,
  x87Exact 0xd9 0xe1 .fabs,
  x87Exact 0xd9 0xe4 .ftst,
  x87Exact 0xd9 0xe5 .fxam,
  x87Exact 0xd9 0xe8 .fld1,
  x87Exact 0xd9 0xe9 .fldl2t,
  x87Exact 0xd9 0xea .fldl2e,
  x87Exact 0xd9 0xeb .fldpi,
  x87Exact 0xd9 0xec .fldlg2,
  x87Exact 0xd9 0xed .fldln2,
  x87Exact 0xd9 0xee .fldz,
  x87Exact 0xd9 0xf0 .f2xm1,
  x87Exact 0xd9 0xf1 .fyl2x,
  x87Exact 0xd9 0xf2 .fptan,
  x87Exact 0xd9 0xf3 .fpatan,
  x87Exact 0xd9 0xf4 .fxtract,
  x87Exact 0xd9 0xf5 .fprem1,
  x87Exact 0xd9 0xf6 .fdecstp,
  x87Exact 0xd9 0xf7 .fincstp,
  x87Exact 0xd9 0xf8 .fprem,
  x87Exact 0xd9 0xf9 .fyl2xp1,
  x87Exact 0xd9 0xfa .fsqrt,
  x87Exact 0xd9 0xfb .fsincos,
  x87Exact 0xd9 0xfc .frndint,
  x87Exact 0xd9 0xfd .fscale,
  x87Exact 0xd9 0xfe .fsin,
  x87Exact 0xd9 0xff .fcos,
  x87Register 0xda 0 .fcmovb [wr .stackTop .b80, rd .stackRm .b80] |>.flags fcmovB,
  x87Register 0xda 1 .fcmove [wr .stackTop .b80, rd .stackRm .b80] |>.flags fcmovE,
  x87Register 0xda 2 .fcmovbe [wr .stackTop .b80, rd .stackRm .b80] |>.flags fcmovBe,
  x87Register 0xda 3 .fcmovu [wr .stackTop .b80, rd .stackRm .b80] |>.flags fcmovU,
  x87Exact 0xda 0xe9 .fucompp,
  x87Register 0xdb 0 .fcmovnb [wr .stackTop .b80, rd .stackRm .b80] |>.flags fcmovB,
  x87Register 0xdb 1 .fcmovne [wr .stackTop .b80, rd .stackRm .b80] |>.flags fcmovE,
  x87Register 0xdb 2 .fcmovnbe [wr .stackTop .b80, rd .stackRm .b80] |>.flags fcmovBe,
  x87Register 0xdb 3 .fcmovnu [wr .stackTop .b80, rd .stackRm .b80] |>.flags fcmovU,
  x87Exact 0xdb 0xe2 .fnclex,
  x87Exact 0xdb 0xe3 .fninit,
  x87Register 0xdb 5 .fucomi [rd .stackTop .b80, rd .stackRm .b80] |>.flags fcomi,
  x87Register 0xdb 6 .fcomi [rd .stackTop .b80, rd .stackRm .b80] |>.flags fcomi,
  x87Register 0xdc 0 .fadd [rw .stackRm .b80, rd .stackTop .b80],
  x87Register 0xdc 1 .fmul [rw .stackRm .b80, rd .stackTop .b80],
  x87Register 0xdc 4 .fsubr [rw .stackRm .b80, rd .stackTop .b80],
  x87Register 0xdc 5 .fsub [rw .stackRm .b80, rd .stackTop .b80],
  x87Register 0xdc 6 .fdivr [rw .stackRm .b80, rd .stackTop .b80],
  x87Register 0xdc 7 .fdiv [rw .stackRm .b80, rd .stackTop .b80],
  x87Register 0xdd 0 .ffree [rd .stackRm .b80],
  x87Register 0xdd 2 .fst [wr .stackRm .b80],
  x87Register 0xdd 3 .fstp [wr .stackRm .b80],
  x87Register 0xdd 4 .fucom [rd .stackRm .b80],
  x87Register 0xdd 5 .fucomp [rd .stackRm .b80],
  x87Register 0xde 0 .faddp [rw .stackRm .b80, rd .stackTop .b80],
  x87Register 0xde 1 .fmulp [rw .stackRm .b80, rd .stackTop .b80],
  x87Exact 0xde 0xd9 .fcompp,
  x87Register 0xde 4 .fsubrp [rw .stackRm .b80, rd .stackTop .b80],
  x87Register 0xde 5 .fsubp [rw .stackRm .b80, rd .stackTop .b80],
  x87Register 0xde 6 .fdivrp [rw .stackRm .b80, rd .stackTop .b80],
  x87Register 0xde 7 .fdivp [rw .stackRm .b80, rd .stackTop .b80],
  primary 0xdf .fnstsw [wr (.fixed .ax) .b16] |>.modrm 0xe0 |>.group .fpu,
  x87Register 0xdf 5 .fucomip [rd .stackTop .b80, rd .stackRm .b80] |>.flags fcomi,
  x87Register 0xdf 6 .fcomip [rd .stackTop .b80, rd .stackRm .b80] |>.flags fcomi]

/-- Floating-point stack instructions. -/
def x87 : List Row :=
  x87MemoryForms ++ x87RegisterForms

end MachineCode.X86.Table
