import MachineCode.X86.Table.Shape

/-!
# Vectors in the VEX encoding

Most rows take three operands, the first source in the vvvv field. Rows that
exist for one vector length only fix the length field.
-/

namespace MachineCode.X86.Table

open Row Slot FlagEffects

/-- Moves, arithmetic, compares and conversions. -/
def avx0F : List Row := [
  vex0F 0x10 .vmovups vecLoad |>.np,
  vex0F 0x10 .vmovupd vecLoad |>.p66,
  vex0F 0x10 .vmovss [wr .vecReg .b128, rd .mem .b32] |>.pF3 |>.memForm,
  vex0F 0x10 .vmovss [wr .vecReg .b128, rd .vecV .b128, rd .vecRmReg .b128] |>.pF3 |>.regForm,
  vex0F 0x10 .vmovsd [wr .vecReg .b128, rd .mem .b64] |>.pF2 |>.memForm,
  vex0F 0x10 .vmovsd [wr .vecReg .b128, rd .vecV .b128, rd .vecRmReg .b128] |>.pF2 |>.regForm,
  vex0F 0x11 .vmovups vecStore |>.np,
  vex0F 0x11 .vmovupd vecStore |>.p66,
  vex0F 0x11 .vmovss [wr .mem .b32, rd .vecReg .b128] |>.pF3 |>.memForm,
  vex0F 0x11 .vmovss [wr .vecRmReg .b128, rd .vecV .b128, rd .vecReg .b128] |>.pF3 |>.regForm,
  vex0F 0x11 .vmovsd [wr .mem .b64, rd .vecReg .b128] |>.pF2 |>.memForm,
  vex0F 0x11 .vmovsd [wr .vecRmReg .b128, rd .vecV .b128, rd .vecReg .b128] |>.pF2 |>.regForm,
  vex0F 0x12 .vmovlps [wr .vecReg .b128, rd .vecV .b128, rd .mem .b64] |>.np |>.memForm |>.len 0,
  vex0F 0x12 .vmovhlps [wr .vecReg .b128, rd .vecV .b128, rd .vecRmReg .b128] |>.np |>.regForm
    |>.len 0,
  vex0F 0x12 .vmovlpd [wr .vecReg .b128, rd .vecV .b128, rd .mem .b64] |>.p66 |>.memForm |>.len 0,
  vex0F 0x12 .vmovsldup vecLoad |>.pF3,
  vex0F 0x12 .vmovddup [wr .vecReg .vec, rd .vecRm .vecHalf] |>.pF2,
  vex0F 0x13 .vmovlps [wr .mem .b64, rd .vecReg .b128] |>.np |>.memForm |>.len 0,
  vex0F 0x13 .vmovlpd [wr .mem .b64, rd .vecReg .b128] |>.p66 |>.memForm |>.len 0,
  vex0F 0x14 .vunpcklps vec3 |>.np,
  vex0F 0x14 .vunpcklpd vec3 |>.p66,
  vex0F 0x15 .vunpckhps vec3 |>.np,
  vex0F 0x15 .vunpckhpd vec3 |>.p66,
  vex0F 0x16 .vmovhps [wr .vecReg .b128, rd .vecV .b128, rd .mem .b64] |>.np |>.memForm |>.len 0,
  vex0F 0x16 .vmovlhps [wr .vecReg .b128, rd .vecV .b128, rd .vecRmReg .b128] |>.np |>.regForm
    |>.len 0,
  vex0F 0x16 .vmovhpd [wr .vecReg .b128, rd .vecV .b128, rd .mem .b64] |>.p66 |>.memForm |>.len 0,
  vex0F 0x16 .vmovshdup vecLoad |>.pF3,
  vex0F 0x17 .vmovhps [wr .mem .b64, rd .vecReg .b128] |>.np |>.memForm |>.len 0,
  vex0F 0x17 .vmovhpd [wr .mem .b64, rd .vecReg .b128] |>.p66 |>.memForm |>.len 0,
  vex0F 0x28 .vmovaps vecLoad |>.np,
  vex0F 0x28 .vmovapd vecLoad |>.p66,
  vex0F 0x29 .vmovaps vecStore |>.np,
  vex0F 0x29 .vmovapd vecStore |>.p66,
  vex0F 0x2a .vcvtsi2ss [wr .vecReg .b128, rd .vecV .b128, rd .rm .y] |>.pF3,
  vex0F 0x2a .vcvtsi2sd [wr .vecReg .b128, rd .vecV .b128, rd .rm .y] |>.pF2,
  vex0F 0x2b .vmovntps [wr .mem .vec, rd .vecReg .vec] |>.np |>.memForm,
  vex0F 0x2b .vmovntpd [wr .mem .vec, rd .vecReg .vec] |>.p66 |>.memForm,
  vex0F 0x2c .vcvttss2si [wr .reg .y, rd .vecRm .b32] |>.pF3,
  vex0F 0x2c .vcvttsd2si [wr .reg .y, rd .vecRm .b64] |>.pF2,
  vex0F 0x2d .vcvtss2si [wr .reg .y, rd .vecRm .b32] |>.pF3,
  vex0F 0x2d .vcvtsd2si [wr .reg .y, rd .vecRm .b64] |>.pF2,
  vex0F 0x2e .vucomiss [rd .vecReg .b128, rd .vecRm .b32] |>.np |>.flags fcomi,
  vex0F 0x2e .vucomisd [rd .vecReg .b128, rd .vecRm .b64] |>.p66 |>.flags fcomi,
  vex0F 0x2f .vcomiss [rd .vecReg .b128, rd .vecRm .b32] |>.np |>.flags fcomi,
  vex0F 0x2f .vcomisd [rd .vecReg .b128, rd .vecRm .b64] |>.p66 |>.flags fcomi,
  vex0F 0x50 .vmovmskps [wr .reg .y, rd .vecRmReg .vec] |>.np |>.regForm,
  vex0F 0x50 .vmovmskpd [wr .reg .y, rd .vecRmReg .vec] |>.p66 |>.regForm,
  vex0F 0x51 .vsqrtps vecLoad |>.np,
  vex0F 0x51 .vsqrtpd vecLoad |>.p66,
  vex0F 0x51 .vsqrtss scalar32 |>.pF3,
  vex0F 0x51 .vsqrtsd scalar64 |>.pF2,
  vex0F 0x52 .vrsqrtps vecLoad |>.np,
  vex0F 0x52 .vrsqrtss scalar32 |>.pF3,
  vex0F 0x53 .vrcpps vecLoad |>.np,
  vex0F 0x53 .vrcpss scalar32 |>.pF3,
  vex0F 0x54 .vandps vec3 |>.np,
  vex0F 0x54 .vandpd vec3 |>.p66,
  vex0F 0x55 .vandnps vec3 |>.np,
  vex0F 0x55 .vandnpd vec3 |>.p66,
  vex0F 0x56 .vorps vec3 |>.np,
  vex0F 0x56 .vorpd vec3 |>.p66,
  vex0F 0x57 .vxorps vec3 |>.np,
  vex0F 0x57 .vxorpd vec3 |>.p66,
  vex0F 0x58 .vaddps vec3 |>.np,
  vex0F 0x58 .vaddpd vec3 |>.p66,
  vex0F 0x58 .vaddss scalar32 |>.pF3,
  vex0F 0x58 .vaddsd scalar64 |>.pF2,
  vex0F 0x59 .vmulps vec3 |>.np,
  vex0F 0x59 .vmulpd vec3 |>.p66,
  vex0F 0x59 .vmulss scalar32 |>.pF3,
  vex0F 0x59 .vmulsd scalar64 |>.pF2,
  vex0F 0x5a .vcvtps2pd [wr .vecReg .vec, rd .vecRm .vecHalf] |>.np,
  vex0F 0x5a .vcvtpd2ps [wr .vecReg .vecHalf, rd .vecRm .vec] |>.p66,
  vex0F 0x5a .vcvtss2sd scalar32 |>.pF3,
  vex0F 0x5a .vcvtsd2ss scalar64 |>.pF2,
  vex0F 0x5b .vcvtdq2ps vecLoad |>.np,
  vex0F 0x5b .vcvtps2dq vecLoad |>.p66,
  vex0F 0x5b .vcvttps2dq vecLoad |>.pF3,
  vex0F 0x5c .vsubps vec3 |>.np,
  vex0F 0x5c .vsubpd vec3 |>.p66,
  vex0F 0x5c .vsubss scalar32 |>.pF3,
  vex0F 0x5c .vsubsd scalar64 |>.pF2,
  vex0F 0x5d .vminps vec3 |>.np,
  vex0F 0x5d .vminpd vec3 |>.p66,
  vex0F 0x5d .vminss scalar32 |>.pF3,
  vex0F 0x5d .vminsd scalar64 |>.pF2,
  vex0F 0x5e .vdivps vec3 |>.np,
  vex0F 0x5e .vdivpd vec3 |>.p66,
  vex0F 0x5e .vdivss scalar32 |>.pF3,
  vex0F 0x5e .vdivsd scalar64 |>.pF2,
  vex0F 0x5f .vmaxps vec3 |>.np,
  vex0F 0x5f .vmaxpd vec3 |>.p66,
  vex0F 0x5f .vmaxss scalar32 |>.pF3,
  vex0F 0x5f .vmaxsd scalar64 |>.pF2,
  vex0F 0x6e .vmovd [wr .vecReg .b128, rd .rm .b32] |>.p66 |>.w0 |>.len 0,
  vex0F 0x6e .vmovq [wr .vecReg .b128, rd .rm .b64] |>.p66 |>.w1 |>.len 0,
  vex0F 0x6f .vmovdqa vecLoad |>.p66,
  vex0F 0x6f .vmovdqu vecLoad |>.pF3,
  vex0F 0x70 .vpshufd vecLoadImm |>.p66,
  vex0F 0x70 .vpshufhw vecLoadImm |>.pF3,
  vex0F 0x70 .vpshuflw vecLoadImm |>.pF2,
  vex0F 0x71 .vpsrlw [wr .vecV .vec, rd .vecRmReg .vec, rd .imm .b8] |>.p66 |>.digit 2 |>.regForm,
  vex0F 0x71 .vpsraw [wr .vecV .vec, rd .vecRmReg .vec, rd .imm .b8] |>.p66 |>.digit 4 |>.regForm,
  vex0F 0x71 .vpsllw [wr .vecV .vec, rd .vecRmReg .vec, rd .imm .b8] |>.p66 |>.digit 6 |>.regForm,
  vex0F 0x72 .vpsrld [wr .vecV .vec, rd .vecRmReg .vec, rd .imm .b8] |>.p66 |>.digit 2 |>.regForm,
  vex0F 0x72 .vpsrad [wr .vecV .vec, rd .vecRmReg .vec, rd .imm .b8] |>.p66 |>.digit 4 |>.regForm,
  vex0F 0x72 .vpslld [wr .vecV .vec, rd .vecRmReg .vec, rd .imm .b8] |>.p66 |>.digit 6 |>.regForm,
  vex0F 0x73 .vpsrlq [wr .vecV .vec, rd .vecRmReg .vec, rd .imm .b8] |>.p66 |>.digit 2 |>.regForm,
  vex0F 0x73 .vpsrldq [wr .vecV .vec, rd .vecRmReg .vec, rd .imm .b8] |>.p66 |>.digit 3 |>.regForm,
  vex0F 0x73 .vpsllq [wr .vecV .vec, rd .vecRmReg .vec, rd .imm .b8] |>.p66 |>.digit 6 |>.regForm,
  vex0F 0x73 .vpslldq [wr .vecV .vec, rd .vecRmReg .vec, rd .imm .b8] |>.p66 |>.digit 7 |>.regForm,
  vex0F 0x77 .vzeroupper [] |>.np |>.len 0,
  vex0F 0x77 .vzeroall [] |>.np |>.len 1,
  vex0F 0x7c .vhaddpd vec3 |>.p66,
  vex0F 0x7c .vhaddps vec3 |>.pF2,
  vex0F 0x7d .vhsubpd vec3 |>.p66,
  vex0F 0x7d .vhsubps vec3 |>.pF2,
  vex0F 0x7e .vmovd [wr .rm .b32, rd .vecReg .b128] |>.p66 |>.w0 |>.len 0,
  vex0F 0x7e .vmovq [wr .rm .b64, rd .vecReg .b128] |>.p66 |>.w1 |>.len 0,
  vex0F 0x7e .vmovq [wr .vecReg .b128, rd .vecRm .b64] |>.pF3 |>.len 0,
  vex0F 0x7f .vmovdqa vecStore |>.p66,
  vex0F 0x7f .vmovdqu vecStore |>.pF3,
  vex0F 0xc2 .vcmpps vec3Imm |>.np |>.predicate .avx,
  vex0F 0xc2 .vcmppd vec3Imm |>.p66 |>.predicate .avx,
  vex0F 0xc2 .vcmpss [wr .vecReg .b128, rd .vecV .b128, rd .vecRm .b32, rd .imm .b8] |>.pF3
    |>.predicate .avx,
  vex0F 0xc2 .vcmpsd [wr .vecReg .b128, rd .vecV .b128, rd .vecRm .b64, rd .imm .b8] |>.pF2
    |>.predicate .avx,
  vex0F 0xc6 .vshufps vec3Imm |>.np,
  vex0F 0xc6 .vshufpd vec3Imm |>.p66,
  vex0F 0xd0 .vaddsubpd vec3 |>.p66,
  vex0F 0xd0 .vaddsubps vec3 |>.pF2,
  vex0F 0xd1 .vpsrlw [wr .vecReg .vec, rd .vecV .vec, rd .vecRm .b128] |>.p66,
  vex0F 0xd2 .vpsrld [wr .vecReg .vec, rd .vecV .vec, rd .vecRm .b128] |>.p66,
  vex0F 0xd3 .vpsrlq [wr .vecReg .vec, rd .vecV .vec, rd .vecRm .b128] |>.p66,
  vex0F 0xd6 .vmovq [wr .vecRm .b64, rd .vecReg .b128] |>.p66 |>.len 0,
  vex0F 0xd7 .vpmovmskb [wr .reg .b32, rd .vecRmReg .vec] |>.p66 |>.regForm,
  vex0F 0xe1 .vpsraw [wr .vecReg .vec, rd .vecV .vec, rd .vecRm .b128] |>.p66,
  vex0F 0xe2 .vpsrad [wr .vecReg .vec, rd .vecV .vec, rd .vecRm .b128] |>.p66,
  vex0F 0xe6 .vcvttpd2dq [wr .vecReg .vecHalf, rd .vecRm .vec] |>.p66,
  vex0F 0xe6 .vcvtdq2pd [wr .vecReg .vec, rd .vecRm .vecHalf] |>.pF3,
  vex0F 0xe6 .vcvtpd2dq [wr .vecReg .vecHalf, rd .vecRm .vec] |>.pF2,
  vex0F 0xe7 .vmovntdq [wr .mem .vec, rd .vecReg .vec] |>.p66 |>.memForm,
  vex0F 0xf0 .vlddqu [wr .vecReg .vec, rd .mem .vec] |>.pF2 |>.memForm,
  vex0F 0xf1 .vpsllw [wr .vecReg .vec, rd .vecV .vec, rd .vecRm .b128] |>.p66,
  vex0F 0xf2 .vpslld [wr .vecReg .vec, rd .vecV .vec, rd .vecRm .b128] |>.p66,
  vex0F 0xf3 .vpsllq [wr .vecReg .vec, rd .vecV .vec, rd .vecRm .b128] |>.p66,
  vex0F 0xf7 .vmaskmovdqu [rd .vecReg .b128, rd .vecRmReg .b128] |>.p66 |>.regForm |>.len 0
    |>.reads [.di]]

/-- Broadcasts, permutations, extensions and masked moves. -/
def avx38 : List Row := [
  vex38 0x0c .vpermilps vec3 |>.w0,
  vex38 0x0d .vpermilpd vec3 |>.w0,
  vex38 0x0e .vtestps [rd .vecReg .vec, rd .vecRm .vec] |>.w0 |>.flags ptest,
  vex38 0x0f .vtestpd [rd .vecReg .vec, rd .vecRm .vec] |>.w0 |>.flags ptest,
  vex38 0x16 .vpermps vec3 |>.w0 |>.len 1 |>.group .avx2,
  vex38 0x17 .vptest [rd .vecReg .vec, rd .vecRm .vec] |>.flags ptest,
  vex38 0x18 .vbroadcastss [wr .vecReg .vec, rd .vecRm .b32] |>.w0,
  vex38 0x19 .vbroadcastsd [wr .vecReg .b256, rd .vecRm .b64] |>.w0 |>.len 1,
  vex38 0x1a .vbroadcastf128 [wr .vecReg .b256, rd .mem .b128] |>.memForm |>.w0 |>.len 1,
  vex38 0x1c .vpabsb vecLoad,
  vex38 0x1d .vpabsw vecLoad,
  vex38 0x1e .vpabsd vecLoad,
  vex38 0x20 .vpmovsxbw [wr .vecReg .vec, rd .vecRm .vecHalf],
  vex38 0x21 .vpmovsxbd [wr .vecReg .vec, rd .vecRm .vecQuarter],
  vex38 0x22 .vpmovsxbq [wr .vecReg .vec, rd .vecRm .vecEighth],
  vex38 0x23 .vpmovsxwd [wr .vecReg .vec, rd .vecRm .vecHalf],
  vex38 0x24 .vpmovsxwq [wr .vecReg .vec, rd .vecRm .vecQuarter],
  vex38 0x25 .vpmovsxdq [wr .vecReg .vec, rd .vecRm .vecHalf],
  vex38 0x2a .vmovntdqa [wr .vecReg .vec, rd .mem .vec] |>.memForm,
  vex38 0x2c .vmaskmovps [wr .vecReg .vec, rd .vecV .vec, rd .mem .vec] |>.memForm |>.w0,
  vex38 0x2d .vmaskmovpd [wr .vecReg .vec, rd .vecV .vec, rd .mem .vec] |>.memForm |>.w0,
  vex38 0x2e .vmaskmovps [wr .mem .vec, rd .vecV .vec, rd .vecReg .vec] |>.memForm |>.w0,
  vex38 0x2f .vmaskmovpd [wr .mem .vec, rd .vecV .vec, rd .vecReg .vec] |>.memForm |>.w0,
  vex38 0x30 .vpmovzxbw [wr .vecReg .vec, rd .vecRm .vecHalf],
  vex38 0x31 .vpmovzxbd [wr .vecReg .vec, rd .vecRm .vecQuarter],
  vex38 0x32 .vpmovzxbq [wr .vecReg .vec, rd .vecRm .vecEighth],
  vex38 0x33 .vpmovzxwd [wr .vecReg .vec, rd .vecRm .vecHalf],
  vex38 0x34 .vpmovzxwq [wr .vecReg .vec, rd .vecRm .vecQuarter],
  vex38 0x35 .vpmovzxdq [wr .vecReg .vec, rd .vecRm .vecHalf],
  vex38 0x36 .vpermd vec3 |>.w0 |>.len 1 |>.group .avx2,
  vex38 0x45 .vpsrlvd vec3 |>.w0 |>.group .avx2,
  vex38 0x45 .vpsrlvq vec3 |>.w1 |>.group .avx2,
  vex38 0x46 .vpsravd vec3 |>.w0 |>.group .avx2,
  vex38 0x47 .vpsllvd vec3 |>.w0 |>.group .avx2,
  vex38 0x47 .vpsllvq vec3 |>.w1 |>.group .avx2,
  vex38 0x58 .vpbroadcastd [wr .vecReg .vec, rd .vecRm .b32] |>.w0 |>.group .avx2,
  vex38 0x59 .vpbroadcastq [wr .vecReg .vec, rd .vecRm .b64] |>.w0 |>.group .avx2,
  vex38 0x5a .vbroadcasti128 [wr .vecReg .b256, rd .mem .b128] |>.memForm |>.w0 |>.len 1
    |>.group .avx2,
  vex38 0x78 .vpbroadcastb [wr .vecReg .vec, rd .vecRm .b8] |>.w0 |>.group .avx2,
  vex38 0x79 .vpbroadcastw [wr .vecReg .vec, rd .vecRm .b16] |>.w0 |>.group .avx2,
  vex38 0x8c .vpmaskmovd [wr .vecReg .vec, rd .vecV .vec, rd .mem .vec] |>.memForm |>.w0
    |>.group .avx2,
  vex38 0x8c .vpmaskmovq [wr .vecReg .vec, rd .vecV .vec, rd .mem .vec] |>.memForm |>.w1
    |>.group .avx2,
  vex38 0x8e .vpmaskmovd [wr .mem .vec, rd .vecV .vec, rd .vecReg .vec] |>.memForm |>.w0
    |>.group .avx2,
  vex38 0x8e .vpmaskmovq [wr .mem .vec, rd .vecV .vec, rd .vecReg .vec] |>.memForm |>.w1
    |>.group .avx2,
  vex38 0xdb .vaesimc xmmLoad |>.len 0 |>.group .aes]

/-- Forms with an immediate byte. -/
def avx3A : List Row := [
  vex3A 0x00 .vpermq [wr .vecReg .b256, rd .vecRm .b256, rd .imm .b8] |>.w1 |>.len 1
    |>.group .avx2,
  vex3A 0x01 .vpermpd [wr .vecReg .b256, rd .vecRm .b256, rd .imm .b8] |>.w1 |>.len 1
    |>.group .avx2,
  vex3A 0x02 .vpblendd vec3Imm |>.w0 |>.group .avx2,
  vex3A 0x04 .vpermilps vecLoadImm |>.w0,
  vex3A 0x05 .vpermilpd vecLoadImm |>.w0,
  vex3A 0x06 .vperm2f128 [wr .vecReg .b256, rd .vecV .b256, rd .vecRm .b256, rd .imm .b8] |>.w0
    |>.len 1,
  vex3A 0x08 .vroundps vecLoadImm,
  vex3A 0x09 .vroundpd vecLoadImm,
  vex3A 0x0a .vroundss [wr .vecReg .b128, rd .vecV .b128, rd .vecRm .b32, rd .imm .b8],
  vex3A 0x0b .vroundsd [wr .vecReg .b128, rd .vecV .b128, rd .vecRm .b64, rd .imm .b8],
  vex3A 0x0c .vblendps vec3Imm,
  vex3A 0x0d .vblendpd vec3Imm,
  vex3A 0x0e .vpblendw vec3Imm,
  vex3A 0x0f .vpalignr vec3Imm,
  vex3A 0x14 .vpextrb [wr .rmReg .b32, rd .vecReg .b128, rd .imm .b8] |>.regForm |>.len 0,
  vex3A 0x14 .vpextrb [wr .mem .b8, rd .vecReg .b128, rd .imm .b8] |>.memForm |>.len 0,
  vex3A 0x15 .vpextrw [wr .rmReg .b32, rd .vecReg .b128, rd .imm .b8] |>.regForm |>.len 0,
  vex3A 0x15 .vpextrw [wr .mem .b16, rd .vecReg .b128, rd .imm .b8] |>.memForm |>.len 0,
  vex3A 0x16 .vpextrd [wr .rm .b32, rd .vecReg .b128, rd .imm .b8] |>.w0 |>.len 0,
  vex3A 0x16 .vpextrq [wr .rm .b64, rd .vecReg .b128, rd .imm .b8] |>.w1 |>.len 0,
  vex3A 0x17 .vextractps [wr .rm .b32, rd .vecReg .b128, rd .imm .b8] |>.len 0,
  vex3A 0x18 .vinsertf128 [wr .vecReg .b256, rd .vecV .b256, rd .vecRm .b128, rd .imm .b8] |>.w0
    |>.len 1,
  vex3A 0x19 .vextractf128 [wr .vecRm .b128, rd .vecReg .b256, rd .imm .b8] |>.w0 |>.len 1,
  vex3A 0x20 .vpinsrb [wr .vecReg .b128, rd .vecV .b128, rd .rmReg .b32, rd .imm .b8] |>.regForm
    |>.len 0,
  vex3A 0x20 .vpinsrb [wr .vecReg .b128, rd .vecV .b128, rd .mem .b8, rd .imm .b8] |>.memForm
    |>.len 0,
  vex3A 0x21 .vinsertps [wr .vecReg .b128, rd .vecV .b128, rd .vecRm .b32, rd .imm .b8] |>.len 0,
  vex3A 0x22 .vpinsrd [wr .vecReg .b128, rd .vecV .b128, rd .rm .b32, rd .imm .b8] |>.w0 |>.len 0,
  vex3A 0x22 .vpinsrq [wr .vecReg .b128, rd .vecV .b128, rd .rm .b64, rd .imm .b8] |>.w1 |>.len 0,
  vex3A 0x38 .vinserti128 [wr .vecReg .b256, rd .vecV .b256, rd .vecRm .b128, rd .imm .b8] |>.w0
    |>.len 1 |>.group .avx2,
  vex3A 0x39 .vextracti128 [wr .vecRm .b128, rd .vecReg .b256, rd .imm .b8] |>.w0 |>.len 1
    |>.group .avx2,
  vex3A 0x40 .vdpps vec3Imm,
  vex3A 0x41 .vdppd vec3Imm |>.len 0,
  vex3A 0x42 .vmpsadbw vec3Imm,
  vex3A 0x44 .vpclmulqdq vec3Imm |>.group .pclmul,
  vex3A 0x46 .vperm2i128 [wr .vecReg .b256, rd .vecV .b256, rd .vecRm .b256, rd .imm .b8] |>.w0
    |>.len 1 |>.group .avx2,
  vex3A 0x4a .vblendvps [wr .vecReg .vec, rd .vecV .vec, rd .vecRm .vec, rd .vecImm .vec] |>.w0,
  vex3A 0x4b .vblendvpd [wr .vecReg .vec, rd .vecV .vec, rd .vecRm .vec, rd .vecImm .vec] |>.w0,
  vex3A 0x4c .vpblendvb [wr .vecReg .vec, rd .vecV .vec, rd .vecRm .vec, rd .vecImm .vec] |>.w0,
  vex3A 0xdf .vaeskeygenassist xmmLoadImm |>.len 0 |>.group .aes]

/-- Three-operand packed integers after `0F`. -/
def avxPacked0F : List Row :=
  List.map (fun (opcode, m) => vex0F opcode m vec3 |>.p66) [
    (0x60, .vpunpcklbw), (0x61, .vpunpcklwd), (0x62, .vpunpckldq), (0x63, .vpacksswb),
    (0x64, .vpcmpgtb), (0x65, .vpcmpgtw), (0x66, .vpcmpgtd), (0x67, .vpackuswb),
    (0x68, .vpunpckhbw), (0x69, .vpunpckhwd), (0x6a, .vpunpckhdq), (0x6b, .vpackssdw),
    (0x6c, .vpunpcklqdq), (0x6d, .vpunpckhqdq), (0x74, .vpcmpeqb), (0x75, .vpcmpeqw),
    (0x76, .vpcmpeqd), (0xd4, .vpaddq), (0xd5, .vpmullw), (0xd8, .vpsubusb), (0xd9, .vpsubusw),
    (0xda, .vpminub), (0xdb, .vpand), (0xdc, .vpaddusb), (0xdd, .vpaddusw), (0xde, .vpmaxub),
    (0xdf, .vpandn), (0xe0, .vpavgb), (0xe3, .vpavgw), (0xe4, .vpmulhuw), (0xe5, .vpmulhw),
    (0xe8, .vpsubsb), (0xe9, .vpsubsw), (0xea, .vpminsw), (0xeb, .vpor), (0xec, .vpaddsb),
    (0xed, .vpaddsw), (0xee, .vpmaxsw), (0xef, .vpxor), (0xf4, .vpmuludq), (0xf5, .vpmaddwd),
    (0xf6, .vpsadbw), (0xf8, .vpsubb), (0xf9, .vpsubw), (0xfa, .vpsubd), (0xfb, .vpsubq),
    (0xfc, .vpaddb), (0xfd, .vpaddw), (0xfe, .vpaddd)]

/-- Three-operand packed integers after `0F 38`. -/
def avxPacked38 : List Row :=
  List.map (fun (opcode, m) => vex38 opcode m vec3) [
    (0x00, .vpshufb), (0x01, .vphaddw), (0x02, .vphaddd), (0x03, .vphaddsw), (0x04, .vpmaddubsw),
    (0x05, .vphsubw), (0x06, .vphsubd), (0x07, .vphsubsw), (0x08, .vpsignb), (0x09, .vpsignw),
    (0x0a, .vpsignd), (0x0b, .vpmulhrsw), (0x28, .vpmuldq), (0x29, .vpcmpeqq), (0x2b, .vpackusdw),
    (0x37, .vpcmpgtq), (0x38, .vpminsb), (0x39, .vpminsd), (0x3a, .vpminuw), (0x3b, .vpminud),
    (0x3c, .vpmaxsb), (0x3d, .vpmaxsd), (0x3e, .vpmaxuw), (0x3f, .vpmaxud), (0x40, .vpmulld),
    (0xdc, .vaesenc), (0xdd, .vaesenclast), (0xde, .vaesdec), (0xdf, .vaesdeclast)]

/-- Vector instructions in the VEX encoding. -/
def avx : List Row :=
  avx0F ++ avx38 ++ avx3A ++ avxPacked0F ++ avxPacked38

end MachineCode.X86.Table
