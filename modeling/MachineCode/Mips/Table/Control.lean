import MachineCode.Mips.Table.Shape

/-!
# Jumps and branches

Release 6 packs several compact branches into one opcode and tells them apart
by comparing the register fields.
-/

namespace MachineCode.Mips.Table

open Row Slot

/-- Jumps to registers and absolute jumps. -/
def jumpRows : List Row := [
  special 0x08 .jr [use .rs] |>.fix (rtField ||| rdField) 0 |>.beforeR6 |>.delay
    |>.inGroups [.jump],
  of 0xfffff83f 0x03e00008 .jr [use .rs] |>.beforeR6 |>.delay |>.inGroups [.ret],
  special 0x09 .jr [use .rs] |>.fix (rtField ||| rdField) 0 |>.r6 |>.delay |>.inGroups [.jump],
  of 0xfffff83f 0x03e00009 .jr [use .rs] |>.r6 |>.delay |>.inGroups [.ret],
  special 0x09 .jalr [set .rd, use .rs] |>.fix rtField 0 |>.delay |>.inGroups [.call],
  special 0x09 .jalr [use .rs] |>.fix (rtField ||| rdField) 0xf800 |>.delay |>.inGroups [.call]
    |>.writes [.ra],
  primary 0x02 .j [use .jump26] |>.delay |>.inGroups [.jump],
  primary 0x03 .jal [use .jump26] |>.delay |>.inGroups [.call] |>.writes [.ra]]

/-- Branches with a delay slot. -/
def branchRows : List Row := [
  regimm 0x00 .bltz branchRs |>.delay |>.inGroups [.jump],
  regimm 0x01 .bgez branchRs |>.delay |>.inGroups [.jump],
  regimm 0x02 .bltzl branchRs |>.beforeR6 |>.delay |>.inGroups [.jump],
  regimm 0x03 .bgezl branchRs |>.beforeR6 |>.delay |>.inGroups [.jump],
  regimm 0x10 .bltzal branchRs |>.beforeR6 |>.delay |>.inGroups [.call] |>.writes [.ra],
  regimm 0x11 .bgezal branchRs |>.beforeR6 |>.delay |>.inGroups [.call] |>.writes [.ra],
  regimm 0x11 .bal branchOnly |>.fix rsField 0 |>.delay |>.inGroups [.call] |>.writes [.ra],
  regimm 0x12 .bltzall branchRs |>.beforeR6 |>.delay |>.inGroups [.call] |>.writes [.ra],
  regimm 0x13 .bgezall branchRs |>.beforeR6 |>.delay |>.inGroups [.call] |>.writes [.ra],
  primary 0x04 .beq branchRsRt |>.delay |>.inGroups [.jump],
  primary 0x04 .b branchOnly |>.fix (rsField ||| rtField) 0 |>.delay |>.inGroups [.jump],
  primary 0x04 .beqz branchRs |>.fix rtField 0 |>.delay |>.inGroups [.jump],
  primary 0x05 .bne branchRsRt |>.delay |>.inGroups [.jump],
  primary 0x05 .bnez branchRs |>.fix rtField 0 |>.delay |>.inGroups [.jump],
  primary 0x06 .blez branchRs |>.fix rtField 0 |>.delay |>.inGroups [.jump],
  primary 0x07 .bgtz branchRs |>.fix rtField 0 |>.delay |>.inGroups [.jump],
  primary 0x14 .beql branchRsRt |>.beforeR6 |>.delay |>.inGroups [.jump],
  primary 0x15 .bnel branchRsRt |>.beforeR6 |>.delay |>.inGroups [.jump],
  primary 0x16 .blezl branchRs |>.fix rtField 0 |>.beforeR6 |>.delay |>.inGroups [.jump],
  primary 0x17 .bgtzl branchRs |>.fix rtField 0 |>.beforeR6 |>.delay |>.inGroups [.jump],
  of 0xffe30000 0x45000000 .bc1f [use .branchCondition, use .branch16] |>.beforeR6 |>.delay
    |>.inGroups [.jump],
  of 0xffe30000 0x45010000 .bc1t [use .branchCondition, use .branch16] |>.beforeR6 |>.delay
    |>.inGroups [.jump],
  of 0xffe30000 0x45020000 .bc1fl [use .branchCondition, use .branch16] |>.beforeR6 |>.delay
    |>.inGroups [.jump],
  of 0xffe30000 0x45030000 .bc1tl [use .branchCondition, use .branch16] |>.beforeR6 |>.delay
    |>.inGroups [.jump],
  of 0xffe00000 0x45200000 .bc1eqz [use .ft, use .branch16] |>.r6 |>.delay |>.inGroups [.jump],
  of 0xffe00000 0x45a00000 .bc1nez [use .ft, use .branch16] |>.r6 |>.delay |>.inGroups [.jump]]

/-- Compact branches of release 6. -/
def compactRows : List Row := [
  primary 0x32 .bc [use .branch26] |>.r6 |>.inGroups [.jump],
  primary 0x3a .balc [use .branch26] |>.r6 |>.inGroups [.call] |>.writes [.ra],
  primary 0x36 .beqzc [use .rs, use .branch21] |>.r6 |>.inGroups [.jump],
  primary 0x36 .jic [use .rt, use .signedImm] |>.fix rsField 0 |>.r6 |>.inGroups [.jump],
  primary 0x3e .bnezc [use .rs, use .branch21] |>.r6 |>.inGroups [.jump],
  primary 0x3e .jialc [use .rt, use .signedImm] |>.fix rsField 0 |>.r6 |>.inGroups [.call]
    |>.writes [.ra],
  primary 0x08 .bovc branchRsRt |>.when .rsFromRt |>.r6 |>.inGroups [.jump],
  primary 0x08 .beqc branchRsRt |>.when .rsBelowRt |>.r6 |>.inGroups [.jump],
  primary 0x08 .beqzalc branchRt |>.fix rsField 0 |>.when .rsBelowRt |>.r6 |>.inGroups [.call]
    |>.writes [.ra],
  primary 0x18 .bnvc branchRsRt |>.when .rsFromRt |>.r6 |>.inGroups [.jump],
  primary 0x18 .bnec branchRsRt |>.when .rsBelowRt |>.r6 |>.inGroups [.jump],
  primary 0x18 .bnezalc branchRt |>.fix rsField 0 |>.when .rsBelowRt |>.r6 |>.inGroups [.call]
    |>.writes [.ra],
  primary 0x06 .blezalc branchRt |>.fix rsField 0 |>.when .rsUnlikeRt |>.r6 |>.inGroups [.call]
    |>.writes [.ra],
  primary 0x06 .bgezalc branchRt |>.when .rsEqualRt |>.r6 |>.inGroups [.call] |>.writes [.ra],
  primary 0x06 .bgeuc branchRsRt |>.when .rsUnlikeRt |>.r6 |>.inGroups [.jump],
  primary 0x07 .bgtzalc branchRt |>.fix rsField 0 |>.when .rsUnlikeRt |>.r6 |>.inGroups [.call]
    |>.writes [.ra],
  primary 0x07 .bltzalc branchRt |>.when .rsEqualRt |>.r6 |>.inGroups [.call] |>.writes [.ra],
  primary 0x07 .bltuc branchRsRt |>.when .rsUnlikeRt |>.r6 |>.inGroups [.jump],
  primary 0x16 .blezc branchRt |>.fix rsField 0 |>.when .rsUnlikeRt |>.r6 |>.inGroups [.jump],
  primary 0x16 .bgezc branchRt |>.when .rsEqualRt |>.r6 |>.inGroups [.jump],
  primary 0x16 .bgec branchRsRt |>.when .rsUnlikeRt |>.r6 |>.inGroups [.jump],
  primary 0x17 .bgtzc branchRt |>.fix rsField 0 |>.when .rsUnlikeRt |>.r6 |>.inGroups [.jump],
  primary 0x17 .bltzc branchRt |>.when .rsEqualRt |>.r6 |>.inGroups [.jump],
  primary 0x17 .bltc branchRsRt |>.when .rsUnlikeRt |>.r6 |>.inGroups [.jump]]

/-- Jumps and branches. -/
def control : List Row :=
  jumpRows ++ branchRows ++ compactRows

end MachineCode.Mips.Table
