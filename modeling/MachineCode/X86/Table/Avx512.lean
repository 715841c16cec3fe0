import MachineCode.X86.Table.Shape

/-!
# Vectors in the EVEX encoding

The W bit tells 32-bit from 64-bit elements, so nearly every row fixes it. Rows
say which element a broadcast repeats and what the broadcast bit means between
registers.
-/

namespace MachineCode.X86.Table

open Row Slot FlagEffects

/-- Packed and scalar arithmetic on 32- and 64-bit elements. In the register form the broadcast
bit selects what `control` says. -/
def arithmeticRows (control : Row → Row) (opcode : UInt8) (ps pd ss sd : Mnemonic) : List Row :=
  List.map control [
    evex0F opcode ps vec3 |>.np |>.w0 |>.bcst32,
    evex0F opcode pd vec3 |>.p66 |>.w1 |>.bcst64,
    evex0F opcode ss scalar32 |>.pF3 |>.w0,
    evex0F opcode sd scalar64 |>.pF2 |>.w1]

/-- Vector arithmetic. -/
def avx512Arithmetic : List Row :=
  arithmeticRows rounding 0x58 .vaddps .vaddpd .vaddss .vaddsd
    ++ arithmeticRows rounding 0x59 .vmulps .vmulpd .vmulss .vmulsd
    ++ arithmeticRows rounding 0x5c .vsubps .vsubpd .vsubss .vsubsd
    ++ arithmeticRows sae 0x5d .vminps .vminpd .vminss .vminsd
    ++ arithmeticRows rounding 0x5e .vdivps .vdivpd .vdivss .vdivsd
    ++ arithmeticRows sae 0x5f .vmaxps .vmaxpd .vmaxss .vmaxsd

/-- Rows after `0F`. -/
def avx512After0F : List Row := [
  evex0F 0x10 .vmovups vecLoad |>.np |>.w0,
  evex0F 0x10 .vmovupd vecLoad |>.p66 |>.w1,
  evex0F 0x10 .vmovss [wr .vecReg .b128, rd .mem .b32] |>.pF3 |>.memForm |>.w0,
  evex0F 0x10 .vmovss [wr .vecReg .b128, rd .vecV .b128, rd .vecRmReg .b128] |>.pF3 |>.regForm
    |>.w0,
  evex0F 0x10 .vmovsd [wr .vecReg .b128, rd .mem .b64] |>.pF2 |>.memForm |>.w1,
  evex0F 0x10 .vmovsd [wr .vecReg .b128, rd .vecV .b128, rd .vecRmReg .b128] |>.pF2 |>.regForm
    |>.w1,
  evex0F 0x11 .vmovups vecStore |>.np |>.w0,
  evex0F 0x11 .vmovupd vecStore |>.p66 |>.w1,
  evex0F 0x11 .vmovss [wr .mem .b32, rd .vecReg .b128] |>.pF3 |>.memForm |>.w0,
  evex0F 0x11 .vmovsd [wr .mem .b64, rd .vecReg .b128] |>.pF2 |>.memForm |>.w1,
  evex0F 0x14 .vunpcklps vec3 |>.np |>.w0 |>.bcst32,
  evex0F 0x14 .vunpcklpd vec3 |>.p66 |>.w1 |>.bcst64,
  evex0F 0x15 .vunpckhps vec3 |>.np |>.w0 |>.bcst32,
  evex0F 0x15 .vunpckhpd vec3 |>.p66 |>.w1 |>.bcst64,
  evex0F 0x28 .vmovaps vecLoad |>.np |>.w0,
  evex0F 0x28 .vmovapd vecLoad |>.p66 |>.w1,
  evex0F 0x29 .vmovaps vecStore |>.np |>.w0,
  evex0F 0x29 .vmovapd vecStore |>.p66 |>.w1,
  evex0F 0x51 .vsqrtps vecLoad |>.np |>.w0 |>.rounding |>.bcst32,
  evex0F 0x51 .vsqrtpd vecLoad |>.p66 |>.w1 |>.rounding |>.bcst64,
  evex0F 0x51 .vsqrtss scalar32 |>.pF3 |>.w0 |>.rounding,
  evex0F 0x51 .vsqrtsd scalar64 |>.pF2 |>.w1 |>.rounding,
  evex0F 0x54 .vandps vec3 |>.np |>.w0 |>.bcst32,
  evex0F 0x54 .vandpd vec3 |>.p66 |>.w1 |>.bcst64,
  evex0F 0x55 .vandnps vec3 |>.np |>.w0 |>.bcst32,
  evex0F 0x55 .vandnpd vec3 |>.p66 |>.w1 |>.bcst64,
  evex0F 0x56 .vorps vec3 |>.np |>.w0 |>.bcst32,
  evex0F 0x56 .vorpd vec3 |>.p66 |>.w1 |>.bcst64,
  evex0F 0x57 .vxorps vec3 |>.np |>.w0 |>.bcst32,
  evex0F 0x57 .vxorpd vec3 |>.p66 |>.w1 |>.bcst64,
  evex0F 0x5a .vcvtps2pd [wr .vecReg .vec, rd .vecRm .vecHalf] |>.np |>.w0 |>.sae |>.bcst32,
  evex0F 0x5a .vcvtpd2ps [wr .vecReg .vecHalf, rd .vecRm .vec] |>.p66 |>.w1 |>.rounding |>.bcst64,
  evex0F 0x5b .vcvtdq2ps vecLoad |>.np |>.w0 |>.rounding |>.bcst32,
  evex0F 0x5b .vcvtps2dq vecLoad |>.p66 |>.w0 |>.rounding |>.bcst32,
  evex0F 0x5b .vcvttps2dq vecLoad |>.pF3 |>.w0 |>.sae |>.bcst32,
  evex0F 0x6e .vmovd [wr .vecReg .b128, rd .rm .b32] |>.p66 |>.w0 |>.len 0 |>.unmasked,
  evex0F 0x6e .vmovq [wr .vecReg .b128, rd .rm .b64] |>.p66 |>.w1 |>.len 0 |>.unmasked,
  evex0F 0x6f .vmovdqa32 vecLoad |>.p66 |>.w0,
  evex0F 0x6f .vmovdqa64 vecLoad |>.p66 |>.w1,
  evex0F 0x6f .vmovdqu32 vecLoad |>.pF3 |>.w0,
  evex0F 0x6f .vmovdqu64 vecLoad |>.pF3 |>.w1,
  evex0F 0x6f .vmovdqu8 vecLoad |>.pF2 |>.w0,
  evex0F 0x6f .vmovdqu16 vecLoad |>.pF2 |>.w1,
  evex0F 0x70 .vpshufd vecLoadImm |>.p66 |>.w0 |>.bcst32,
  evex0F 0x72 .vprord [wr .vecV .vec, rd .vecRm .vec, rd .imm .b8] |>.p66 |>.digit 0 |>.w0
    |>.bcst32,
  evex0F 0x72 .vprorq [wr .vecV .vec, rd .vecRm .vec, rd .imm .b8] |>.p66 |>.digit 0 |>.w1
    |>.bcst64,
  evex0F 0x72 .vprold [wr .vecV .vec, rd .vecRm .vec, rd .imm .b8] |>.p66 |>.digit 1 |>.w0
    |>.bcst32,
  evex0F 0x72 .vprolq [wr .vecV .vec, rd .vecRm .vec, rd .imm .b8] |>.p66 |>.digit 1 |>.w1
    |>.bcst64,
  evex0F 0x72 .vpsrld [wr .vecV .vec, rd .vecRm .vec, rd .imm .b8] |>.p66 |>.digit 2 |>.w0
    |>.bcst32,
  evex0F 0x72 .vpsrad [wr .vecV .vec, rd .vecRm .vec, rd .imm .b8] |>.p66 |>.digit 4 |>.w0
    |>.bcst32,
  evex0F 0x72 .vpsraq [wr .vecV .vec, rd .vecRm .vec, rd .imm .b8] |>.p66 |>.digit 4 |>.w1
    |>.bcst64,
  evex0F 0x72 .vpslld [wr .vecV .vec, rd .vecRm .vec, rd .imm .b8] |>.p66 |>.digit 6 |>.w0
    |>.bcst32,
  evex0F 0x73 .vpsrlq [wr .vecV .vec, rd .vecRm .vec, rd .imm .b8] |>.p66 |>.digit 2 |>.w1
    |>.bcst64,
  evex0F 0x73 .vpsllq [wr .vecV .vec, rd .vecRm .vec, rd .imm .b8] |>.p66 |>.digit 6 |>.w1
    |>.bcst64,
  evex0F 0x76 .vpcmpeqd [wr .maskReg .b64, rd .vecV .vec, rd .vecRm .vec] |>.p66 |>.w0 |>.bcst32,
  evex0F 0x7e .vmovd [wr .rm .b32, rd .vecReg .b128] |>.p66 |>.w0 |>.len 0 |>.unmasked,
  evex0F 0x7e .vmovq [wr .rm .b64, rd .vecReg .b128] |>.p66 |>.w1 |>.len 0 |>.unmasked,
  evex0F 0x7e .vmovq [wr .vecReg .b128, rd .vecRm .b64] |>.pF3 |>.w1 |>.len 0 |>.unmasked,
  evex0F 0x7f .vmovdqa32 vecStore |>.p66 |>.w0,
  evex0F 0x7f .vmovdqa64 vecStore |>.p66 |>.w1,
  evex0F 0x7f .vmovdqu32 vecStore |>.pF3 |>.w0,
  evex0F 0x7f .vmovdqu64 vecStore |>.pF3 |>.w1,
  evex0F 0x7f .vmovdqu8 vecStore |>.pF2 |>.w0,
  evex0F 0x7f .vmovdqu16 vecStore |>.pF2 |>.w1,
  evex0F 0xc2 .vcmpps [wr .maskReg .b64, rd .vecV .vec, rd .vecRm .vec, rd .imm .b8] |>.np |>.w0
    |>.predicate .avx |>.sae |>.bcst32,
  evex0F 0xc2 .vcmppd [wr .maskReg .b64, rd .vecV .vec, rd .vecRm .vec, rd .imm .b8] |>.p66 |>.w1
    |>.predicate .avx |>.sae |>.bcst64,
  evex0F 0xc6 .vshufps vec3Imm |>.np |>.w0 |>.bcst32,
  evex0F 0xc6 .vshufpd vec3Imm |>.p66 |>.w1 |>.bcst64,
  evex0F 0xd6 .vmovq [wr .vecRm .b64, rd .vecReg .b128] |>.p66 |>.w1 |>.len 0 |>.unmasked,
  evex0F 0xe6 .vcvttpd2dq [wr .vecReg .vecHalf, rd .vecRm .vec] |>.p66 |>.w1 |>.sae |>.bcst64,
  evex0F 0xe6 .vcvtdq2pd [wr .vecReg .vec, rd .vecRm .vecHalf] |>.pF3 |>.w0 |>.bcst32,
  evex0F 0xe7 .vmovntdq [wr .mem .vec, rd .vecReg .vec] |>.p66 |>.memForm |>.w0 |>.unmasked,
  evex0F 0xd4 .vpaddq vec3 |>.p66 |>.w1 |>.bcst64,
  evex0F 0xd5 .vpmullw vec3 |>.p66,
  evex0F 0xda .vpminub vec3 |>.p66,
  evex0F 0xdb .vpandd vec3 |>.p66 |>.w0 |>.bcst32,
  evex0F 0xdb .vpandq vec3 |>.p66 |>.w1 |>.bcst64,
  evex0F 0xde .vpmaxub vec3 |>.p66,
  evex0F 0xdf .vpandnd vec3 |>.p66 |>.w0 |>.bcst32,
  evex0F 0xdf .vpandnq vec3 |>.p66 |>.w1 |>.bcst64,
  evex0F 0xe0 .vpavgb vec3 |>.p66,
  evex0F 0xeb .vpord vec3 |>.p66 |>.w0 |>.bcst32,
  evex0F 0xeb .vporq vec3 |>.p66 |>.w1 |>.bcst64,
  evex0F 0xef .vpxord vec3 |>.p66 |>.w0 |>.bcst32,
  evex0F 0xef .vpxorq vec3 |>.p66 |>.w1 |>.bcst64,
  evex0F 0xf4 .vpmuludq vec3 |>.p66 |>.w1 |>.bcst64,
  evex0F 0xf8 .vpsubb vec3 |>.p66,
  evex0F 0xf9 .vpsubw vec3 |>.p66,
  evex0F 0xfa .vpsubd vec3 |>.p66 |>.w0 |>.bcst32,
  evex0F 0xfb .vpsubq vec3 |>.p66 |>.w1 |>.bcst64,
  evex0F 0xfc .vpaddb vec3 |>.p66,
  evex0F 0xfd .vpaddw vec3 |>.p66,
  evex0F 0xfe .vpaddd vec3 |>.p66 |>.w0 |>.bcst32]

/-- Rows after `0F 38`. -/
def avx512After38 : List Row := [
  evex38 0x16 .vpermps vec3 |>.w0 |>.bcst32,
  evex38 0x16 .vpermpd vec3 |>.w1 |>.bcst64,
  evex38 0x18 .vbroadcastss [wr .vecReg .vec, rd .vecRm .b32] |>.w0,
  evex38 0x19 .vbroadcastsd [wr .vecReg .vec, rd .vecRm .b64] |>.w1,
  evex38 0x1e .vpabsd vecLoad |>.w0 |>.bcst32,
  evex38 0x1f .vpabsq vecLoad |>.w1 |>.bcst64,
  evex38 0x29 .vpcmpeqq [wr .maskReg .b64, rd .vecV .vec, rd .vecRm .vec] |>.w1 |>.bcst64,
  evex38 0x36 .vpermd vec3 |>.w0 |>.bcst32,
  evex38 0x36 .vpermq vec3 |>.w1 |>.bcst64,
  evex38 0x39 .vpminsd vec3 |>.w0 |>.bcst32,
  evex38 0x39 .vpminsq vec3 |>.w1 |>.bcst64,
  evex38 0x3d .vpmaxsd vec3 |>.w0 |>.bcst32,
  evex38 0x3d .vpmaxsq vec3 |>.w1 |>.bcst64,
  evex38 0x40 .vpmulld vec3 |>.w0 |>.bcst32,
  evex38 0x40 .vpmullq vec3 |>.w1 |>.bcst64,
  evex38 0x45 .vpsrlvd vec3 |>.w0 |>.bcst32,
  evex38 0x45 .vpsrlvq vec3 |>.w1 |>.bcst64,
  evex38 0x46 .vpsravd vec3 |>.w0 |>.bcst32,
  evex38 0x46 .vpsravq vec3 |>.w1 |>.bcst64,
  evex38 0x47 .vpsllvd vec3 |>.w0 |>.bcst32,
  evex38 0x47 .vpsllvq vec3 |>.w1 |>.bcst64,
  evex38 0x58 .vpbroadcastd [wr .vecReg .vec, rd .vecRm .b32] |>.w0,
  evex38 0x59 .vpbroadcastq [wr .vecReg .vec, rd .vecRm .b64] |>.w1,
  evex38 0x64 .vpblendmd vec3 |>.w0 |>.bcst32,
  evex38 0x64 .vpblendmq vec3 |>.w1 |>.bcst64,
  evex38 0x7c .vpbroadcastd [wr .vecReg .vec, rd .rmReg .b32] |>.regForm |>.w0,
  evex38 0x7c .vpbroadcastq [wr .vecReg .vec, rd .rmReg .b64] |>.regForm |>.w1,
  evex38 0xa8 .vfmadd213ps fused |>.w0 |>.rounding |>.bcst32,
  evex38 0xa8 .vfmadd213pd fused |>.w1 |>.rounding |>.bcst64,
  evex38 0xa9 .vfmadd213ss fused32 |>.w0 |>.rounding,
  evex38 0xa9 .vfmadd213sd fused64 |>.w1 |>.rounding,
  evex38 0xb8 .vfmadd231ps fused |>.w0 |>.rounding |>.bcst32,
  evex38 0xb8 .vfmadd231pd fused |>.w1 |>.rounding |>.bcst64,
  evex38 0xb9 .vfmadd231ss fused32 |>.w0 |>.rounding,
  evex38 0xb9 .vfmadd231sd fused64 |>.w1 |>.rounding,
  evex38 0x00 .vpshufb vec3,
  evex38 0x3b .vpminud vec3 |>.w0 |>.bcst32,
  evex38 0x3f .vpmaxud vec3 |>.w0 |>.bcst32]

/-- Rows after `0F 3A`. -/
def avx512After3A : List Row := [
  evex3A 0x00 .vpermq vecLoadImm |>.w1 |>.bcst64,
  evex3A 0x01 .vpermpd vecLoadImm |>.w1 |>.bcst64,
  evex3A 0x03 .valignd vec3Imm |>.w0 |>.bcst32,
  evex3A 0x03 .valignq vec3Imm |>.w1 |>.bcst64,
  evex3A 0x0f .vpalignr vec3Imm,
  evex3A 0x18 .vinsertf32x4 [wr .vecReg .vec, rd .vecV .vec, rd .vecRm .b128, rd .imm .b8] |>.w0,
  evex3A 0x19 .vextractf32x4 [wr .vecRm .b128, rd .vecReg .vec, rd .imm .b8] |>.w0,
  evex3A 0x1a .vinsertf64x4 [wr .vecReg .b512, rd .vecV .b512, rd .vecRm .b256, rd .imm .b8] |>.w1
    |>.len 2,
  evex3A 0x1b .vextractf64x4 [wr .vecRm .b256, rd .vecReg .b512, rd .imm .b8] |>.w1 |>.len 2,
  evex3A 0x1e .vpcmpud [wr .maskReg .b64, rd .vecV .vec, rd .vecRm .vec, rd .imm .b8] |>.w0
    |>.bcst32,
  evex3A 0x1e .vpcmpuq [wr .maskReg .b64, rd .vecV .vec, rd .vecRm .vec, rd .imm .b8] |>.w1
    |>.bcst64,
  evex3A 0x1f .vpcmpd [wr .maskReg .b64, rd .vecV .vec, rd .vecRm .vec, rd .imm .b8] |>.w0
    |>.bcst32,
  evex3A 0x1f .vpcmpq [wr .maskReg .b64, rd .vecV .vec, rd .vecRm .vec, rd .imm .b8] |>.w1
    |>.bcst64,
  evex3A 0x25 .vpternlogd [rw .vecReg .vec, rd .vecV .vec, rd .vecRm .vec, rd .imm .b8] |>.w0
    |>.bcst32,
  evex3A 0x25 .vpternlogq [rw .vecReg .vec, rd .vecV .vec, rd .vecRm .vec, rd .imm .b8] |>.w1
    |>.bcst64,
  evex3A 0x38 .vinserti32x4 [wr .vecReg .vec, rd .vecV .vec, rd .vecRm .b128, rd .imm .b8] |>.w0,
  evex3A 0x39 .vextracti32x4 [wr .vecRm .b128, rd .vecReg .vec, rd .imm .b8] |>.w0,
  evex3A 0x3a .vinserti64x4 [wr .vecReg .b512, rd .vecV .b512, rd .vecRm .b256, rd .imm .b8] |>.w1
    |>.len 2,
  evex3A 0x3b .vextracti64x4 [wr .vecRm .b256, rd .vecReg .b512, rd .imm .b8] |>.w1 |>.len 2]

/-- Vector instructions in the EVEX encoding. -/
def avx512 : List Row :=
  avx512Arithmetic ++ avx512After0F ++ avx512After38 ++ avx512After3A

end MachineCode.X86.Table
