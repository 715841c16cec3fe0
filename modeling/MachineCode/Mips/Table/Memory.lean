import MachineCode.Mips.Table.Shape

/-!
# Loads and stores

Base register and offset; release 6 moved some of them to encodings with a
shorter offset.
-/

namespace MachineCode.Mips.Table

open Row Slot

/-- Loads, stores, linked pairs and loads relative to the program counter. -/
def memory : List Row := [
  load 0x20 .lb 8,
  load 0x21 .lh 16,
  primary 0x22 .lwl [update .rt, use (.mem 32)] |>.beforeR6,
  load 0x23 .lw 32,
  load 0x24 .lbu 8,
  load 0x25 .lhu 16,
  primary 0x26 .lwr [update .rt, use (.mem 32)] |>.beforeR6,
  load 0x27 .lwu 32 |>.only64,
  store 0x28 .sb 8,
  store 0x29 .sh 16,
  store 0x2a .swl 32 |>.beforeR6,
  store 0x2b .sw 32,
  store 0x2c .sdl 64 |>.beforeR6 |>.only64,
  store 0x2d .sdr 64 |>.beforeR6 |>.only64,
  store 0x2e .swr 32 |>.beforeR6,
  load 0x30 .ll 32 |>.beforeR6,
  primary 0x31 .lwc1 [set .ft, use (.mem 32)],
  load 0x34 .lld 64 |>.beforeR6 |>.only64,
  primary 0x35 .ldc1 [set .ft, use (.mem 64)],
  load 0x37 .ld 64 |>.only64,
  primary 0x38 .sc [update .rt, set (.mem 32)] |>.beforeR6,
  primary 0x39 .swc1 [use .ft, set (.mem 32)],
  primary 0x3c .scd [update .rt, set (.mem 64)] |>.beforeR6 |>.only64,
  primary 0x3d .sdc1 [use .ft, set (.mem 64)],
  store 0x3f .sd 64 |>.only64,
  primary 0x1a .ldl [update .rt, use (.mem 64)] |>.beforeR6 |>.only64,
  primary 0x1b .ldr [update .rt, use (.mem 64)] |>.beforeR6 |>.only64,
  special3 0x36 .ll [set .rt, use (.mem9 32)] |>.fix 0x40 0 |>.r6,
  special3 0x26 .sc [update .rt, set (.mem9 32)] |>.fix 0x40 0 |>.r6,
  special3 0x37 .lld [set .rt, use (.mem9 64)] |>.fix 0x40 0 |>.r6 |>.only64,
  special3 0x27 .scd [update .rt, set (.mem9 64)] |>.fix 0x40 0 |>.r6 |>.only64,
  of 0xfc180000 0xec080000 .lwpc [set .rs, use .pc19] |>.r6,
  of 0xfc180000 0xec100000 .lwupc [set .rs, use .pc19] |>.r6 |>.only64]

end MachineCode.Mips.Table
