import MachineCode.Mips.Table.Shape

/-!
# System instructions

Traps, system calls, coprocessor moves, caches and the interrupt state.
-/

namespace MachineCode.Mips.Table

open Row Slot

/-- Traps, breakpoints, barriers, caches, and the system coprocessor. -/
def system : List Row := [
  special 0x0c .syscall [] |>.inGroups [.int],
  special 0x0d .breakTrap [] |>.inGroups [.int],
  special 0x0e .sdbbp [] |>.r6 |>.inGroups [.int],
  special 0x0f .sync [] |>.fix (rsField ||| rtField ||| rdField) 0,
  special2 0x3f .sdbbp [] |>.beforeR6 |>.inGroups [.int],
  special 0x30 .tge trap |>.inGroups [.int],
  special 0x31 .tgeu trap |>.inGroups [.int],
  special 0x32 .tlt trap |>.inGroups [.int],
  special 0x33 .tltu trap |>.inGroups [.int],
  special 0x34 .teq trap |>.inGroups [.int],
  special 0x36 .tne trap |>.inGroups [.int],
  regimm 0x08 .tgei trapImm |>.beforeR6 |>.inGroups [.int],
  regimm 0x09 .tgeiu trapImm |>.beforeR6 |>.inGroups [.int],
  regimm 0x0a .tlti trapImm |>.beforeR6 |>.inGroups [.int],
  regimm 0x0b .tltiu trapImm |>.beforeR6 |>.inGroups [.int],
  regimm 0x0c .teqi trapImm |>.beforeR6 |>.inGroups [.int],
  regimm 0x0e .tnei trapImm |>.beforeR6 |>.inGroups [.int],
  of 0xffe007f8 0x40000000 .mfc0 [set .rt, note .rawRd, note .select] |>.inGroups [.privilege],
  of 0xffe007f8 0x40200000 .dmfc0 [set .rt, note .rawRd, note .select] |>.only64
    |>.inGroups [.privilege],
  of 0xffe007f8 0x40800000 .mtc0 [use .rt, note .rawRd, note .select] |>.inGroups [.privilege],
  of 0xffe007f8 0x40a00000 .dmtc0 [use .rt, note .rawRd, note .select] |>.only64
    |>.inGroups [.privilege],
  of 0xffe0ffff 0x41606000 .di [set .rt] |>.rel2 |>.inGroups [.privilege],
  of 0xffe0ffff 0x41606020 .ei [set .rt] |>.rel2 |>.inGroups [.privilege],
  of 0xffffffff 0x42000001 .tlbr [] |>.inGroups [.privilege],
  of 0xffffffff 0x42000002 .tlbwi [] |>.inGroups [.privilege],
  of 0xffffffff 0x42000006 .tlbwr [] |>.inGroups [.privilege],
  of 0xffffffff 0x42000008 .tlbp [] |>.inGroups [.privilege],
  of 0xffffffff 0x42000018 .eret [] |>.inGroups [.privilege, .iret],
  of 0xffffffff 0x4200001f .deret [] |>.inGroups [.privilege, .iret],
  of 0xfe00003f 0x42000020 .wait [] |>.inGroups [.privilege],
  special3 0x25 .cache [note .hint, note (.mem9 0)] |>.fix 0x40 0 |>.r6 |>.inGroups [.privilege],
  special3 0x35 .pref [note .hint, note (.mem9 0)] |>.fix 0x40 0 |>.r6,
  primary 0x2f .cache [note .hint, note (.mem 0)] |>.beforeR6 |>.inGroups [.privilege],
  primary 0x33 .pref [note .hint, note (.mem 0)] |>.beforeR6,
  regimm 0x1f .synci [note (.mem 0)] |>.rel2,
  special3 0x3b .rdhwr [set .rt, note .rawRd] |>.fix rsField 0 |>.rel2]

end MachineCode.Mips.Table
