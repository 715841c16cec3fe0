import MachineCode.X86.Table.Shape

/-!
# Shifts, rotates and bit manipulation

All shifts and rotates share six opcodes and are told apart by the register field
of the ModRM byte.
-/

namespace MachineCode.X86.Table

open Row Slot FlagEffects

/-- The six forms of a shift or rotate: by an immediate, by one, and by `cl`. -/
def shiftForms (extension : UInt8) (m : Mnemonic) (effects : BitVec 64) : List Row := [
  primary 0xc0 m [rw .rm .b8, rd .imm .b8] |>.digit extension |>.flags effects,
  primary 0xc1 m [rw .rm .v, rd .imm .b8] |>.digit extension |>.flags effects,
  primary 0xd0 m [rw .rm .b8, rd .one .b8] |>.digit extension |>.flags effects,
  primary 0xd1 m [rw .rm .v, rd .one .b8] |>.digit extension |>.flags effects,
  primary 0xd2 m [rw .rm .b8, rd (.fixed .cl) .b8] |>.digit extension |>.flags effects,
  primary 0xd3 m [rw .rm .v, rd (.fixed .cl) .b8] |>.digit extension |>.flags effects]

/-- Shifts and rotates. -/
def shifts : List Row :=
  shiftForms 0 .rol rotate
    ++ shiftForms 1 .ror rotate
    ++ shiftForms 2 .rcl rotateCarry
    ++ shiftForms 3 .rcr rotateCarry
    ++ shiftForms 4 .shl shift
    ++ shiftForms 5 .shr shift
    ++ shiftForms 6 .sal shift
    ++ shiftForms 7 .sar shift

/-- Bit tests, scans, counts, byte swaps and double-precision shifts. -/
def bitOperations : List Row := [
  after0F 0xa3 .bt [rd .rm .v, rd .reg .v] |>.flags bittest,
  after0F 0xa4 .shld [rw .rm .v, rd .reg .v, rd .imm .b8] |>.flags dshift,
  after0F 0xa5 .shld [rw .rm .v, rd .reg .v, rd (.fixed .cl) .b8] |>.flags dshift,
  after0F 0xab .bts [rw .rm .v, rd .reg .v] |>.flags bittest,
  after0F 0xac .shrd [rw .rm .v, rd .reg .v, rd .imm .b8] |>.flags dshift,
  after0F 0xad .shrd [rw .rm .v, rd .reg .v, rd (.fixed .cl) .b8] |>.flags dshift,
  after0F 0xb3 .btr [rw .rm .v, rd .reg .v] |>.flags bittest,
  after0F 0xb8 .popcnt [wr .reg .v, rd .rm .v] |>.pF3 |>.flags bitCount,
  after0F 0xba .bt [rd .rm .v, rd .imm .b8] |>.digit 4 |>.flags bittest,
  after0F 0xba .bts [rw .rm .v, rd .imm .b8] |>.digit 5 |>.flags bittest,
  after0F 0xba .btr [rw .rm .v, rd .imm .b8] |>.digit 6 |>.flags bittest,
  after0F 0xba .btc [rw .rm .v, rd .imm .b8] |>.digit 7 |>.flags bittest,
  after0F 0xbb .btc [rw .rm .v, rd .reg .v] |>.flags bittest,
  after0F 0xbc .bsf [wr .reg .v, rd .rm .v] |>.flags bitscan,
  after0F 0xbc .tzcnt [wr .reg .v, rd .rm .v] |>.pF3 |>.flags bitCount |>.group .bmi,
  after0F 0xbd .bsr [wr .reg .v, rd .rm .v] |>.flags bitscan,
  after0F 0xbd .lzcnt [wr .reg .v, rd .rm .v] |>.pF3 |>.flags bitCount,
  after0F 0xc8 .bswap [rw .opcodeReg .v] |>.plusReg,
  after0F38 0xf0 .movbe [wr .reg .v, rd .mem .v] |>.memForm,
  after0F38 0xf1 .movbe [wr .mem .v, rd .reg .v] |>.memForm]

/-- Bit-field instructions in the VEX encoding. -/
def bitFields : List Row := [
  vex38 0xf2 .andn [wr .reg .y, rd .regV .y, rd .rm .y] |>.np |>.len 0 |>.flags bmi |>.group .bmi,
  vex38 0xf3 .blsr [wr .regV .y, rd .rm .y] |>.np |>.digit 1 |>.len 0 |>.flags bmi |>.group .bmi,
  vex38 0xf3 .blsmsk [wr .regV .y, rd .rm .y] |>.np |>.digit 2 |>.len 0 |>.flags bmi |>.group .bmi,
  vex38 0xf3 .blsi [wr .regV .y, rd .rm .y] |>.np |>.digit 3 |>.len 0 |>.flags bmi |>.group .bmi,
  vex38 0xf5 .bzhi [wr .reg .y, rd .rm .y, rd .regV .y] |>.np |>.len 0 |>.flags bmi |>.group .bmi2,
  vex38 0xf5 .pext [wr .reg .y, rd .regV .y, rd .rm .y] |>.pF3 |>.len 0 |>.group .bmi2,
  vex38 0xf5 .pdep [wr .reg .y, rd .regV .y, rd .rm .y] |>.pF2 |>.len 0 |>.group .bmi2,
  vex38 0xf6 .mulx [wr .reg .y, wr .regV .y, rd .rm .y] |>.pF2 |>.len 0 |>.reads [.dx]
    |>.group .bmi2,
  vex38 0xf7 .bextr [wr .reg .y, rd .rm .y, rd .regV .y] |>.np |>.len 0 |>.flags bmi |>.group .bmi,
  vex38 0xf7 .shlx [wr .reg .y, rd .rm .y, rd .regV .y] |>.len 0 |>.group .bmi2,
  vex38 0xf7 .sarx [wr .reg .y, rd .rm .y, rd .regV .y] |>.pF3 |>.len 0 |>.group .bmi2,
  vex38 0xf7 .shrx [wr .reg .y, rd .rm .y, rd .regV .y] |>.pF2 |>.len 0 |>.group .bmi2,
  vex3A 0xf0 .rorx [wr .reg .y, rd .rm .y, rd .imm .b8] |>.pF2 |>.len 0 |>.group .bmi2]

/-- Shifts, rotates and bit manipulation. -/
def bits : List Row :=
  shifts ++ bitOperations ++ bitFields

end MachineCode.X86.Table
