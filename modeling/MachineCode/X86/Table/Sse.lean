import MachineCode.X86.Table.Shape

/-!
# 128-bit vectors in the legacy encoding

The mandatory prefix selects packed or scalar operation and the element width.
-/

namespace MachineCode.X86.Table

open Row Slot FlagEffects

/-- Single-precision vector instructions. -/
def sseSingle : List Row := [
  after0F 0x10 .movups xmmLoad |>.np |>.group .sse1,
  after0F 0x10 .movss [wr .vecReg .b128, rd .vecRm .b32] |>.pF3 |>.group .sse1,
  after0F 0x11 .movups xmmStore |>.np |>.group .sse1,
  after0F 0x11 .movss [wr .vecRm .b32, rd .vecReg .b128] |>.pF3 |>.group .sse1,
  after0F 0x12 .movlps [rw .vecReg .b128, rd .mem .b64] |>.np |>.memForm |>.group .sse1,
  after0F 0x12 .movhlps [rw .vecReg .b128, rd .vecRmReg .b128] |>.np |>.regForm |>.group .sse1,
  after0F 0x13 .movlps [wr .mem .b64, rd .vecReg .b128] |>.np |>.memForm |>.group .sse1,
  after0F 0x14 .unpcklps xmmUpdate |>.np |>.group .sse1,
  after0F 0x15 .unpckhps xmmUpdate |>.np |>.group .sse1,
  after0F 0x16 .movhps [rw .vecReg .b128, rd .mem .b64] |>.np |>.memForm |>.group .sse1,
  after0F 0x16 .movlhps [rw .vecReg .b128, rd .vecRmReg .b128] |>.np |>.regForm |>.group .sse1,
  after0F 0x17 .movhps [wr .mem .b64, rd .vecReg .b128] |>.np |>.memForm |>.group .sse1,
  after0F 0x18 .prefetchnta [rd .mem .b8] |>.digit 0 |>.memForm |>.group .sse1,
  after0F 0x18 .prefetcht0 [rd .mem .b8] |>.digit 1 |>.memForm |>.group .sse1,
  after0F 0x18 .prefetcht1 [rd .mem .b8] |>.digit 2 |>.memForm |>.group .sse1,
  after0F 0x18 .prefetcht2 [rd .mem .b8] |>.digit 3 |>.memForm |>.group .sse1,
  after0F 0x28 .movaps xmmLoad |>.np |>.group .sse1,
  after0F 0x29 .movaps xmmStore |>.np |>.group .sse1,
  after0F 0x2a .cvtpi2ps [wr .vecReg .b128, rd .mmxRm .b64] |>.np |>.group .sse1,
  after0F 0x2a .cvtsi2ss [wr .vecReg .b128, rd .rm .y] |>.pF3 |>.group .sse1,
  after0F 0x2b .movntps [wr .mem .b128, rd .vecReg .b128] |>.np |>.memForm |>.group .sse1,
  after0F 0x2c .cvttps2pi [wr .mmxReg .b64, rd .vecRm .b64] |>.np |>.group .sse1,
  after0F 0x2c .cvttss2si [wr .reg .y, rd .vecRm .b32] |>.pF3 |>.group .sse1,
  after0F 0x2d .cvtps2pi [wr .mmxReg .b64, rd .vecRm .b64] |>.np |>.group .sse1,
  after0F 0x2d .cvtss2si [wr .reg .y, rd .vecRm .b32] |>.pF3 |>.group .sse1,
  after0F 0x2e .ucomiss [rd .vecReg .b128, rd .vecRm .b32] |>.np |>.flags fcomi |>.group .sse1,
  after0F 0x2f .comiss [rd .vecReg .b128, rd .vecRm .b32] |>.np |>.flags fcomi |>.group .sse1,
  after0F 0x50 .movmskps [wr .reg .y, rd .vecRmReg .b128] |>.np |>.regForm |>.group .sse1,
  after0F 0x51 .sqrtps xmmLoad |>.np |>.group .sse1,
  after0F 0x51 .sqrtss [wr .vecReg .b128, rd .vecRm .b32] |>.pF3 |>.group .sse1,
  after0F 0x52 .rsqrtps xmmLoad |>.np |>.group .sse1,
  after0F 0x52 .rsqrtss [wr .vecReg .b128, rd .vecRm .b32] |>.pF3 |>.group .sse1,
  after0F 0x53 .rcpps xmmLoad |>.np |>.group .sse1,
  after0F 0x53 .rcpss [wr .vecReg .b128, rd .vecRm .b32] |>.pF3 |>.group .sse1,
  after0F 0x54 .andps xmmUpdate |>.np |>.group .sse1,
  after0F 0x55 .andnps xmmUpdate |>.np |>.group .sse1,
  after0F 0x56 .orps xmmUpdate |>.np |>.group .sse1,
  after0F 0x57 .xorps xmmUpdate |>.np |>.group .sse1,
  after0F 0x58 .addps xmmUpdate |>.np |>.group .sse1,
  after0F 0x58 .addss [rw .vecReg .b128, rd .vecRm .b32] |>.pF3 |>.group .sse1,
  after0F 0x59 .mulps xmmUpdate |>.np |>.group .sse1,
  after0F 0x59 .mulss [rw .vecReg .b128, rd .vecRm .b32] |>.pF3 |>.group .sse1,
  after0F 0x5c .subps xmmUpdate |>.np |>.group .sse1,
  after0F 0x5c .subss [rw .vecReg .b128, rd .vecRm .b32] |>.pF3 |>.group .sse1,
  after0F 0x5d .minps xmmUpdate |>.np |>.group .sse1,
  after0F 0x5d .minss [rw .vecReg .b128, rd .vecRm .b32] |>.pF3 |>.group .sse1,
  after0F 0x5e .divps xmmUpdate |>.np |>.group .sse1,
  after0F 0x5e .divss [rw .vecReg .b128, rd .vecRm .b32] |>.pF3 |>.group .sse1,
  after0F 0x5f .maxps xmmUpdate |>.np |>.group .sse1,
  after0F 0x5f .maxss [rw .vecReg .b128, rd .vecRm .b32] |>.pF3 |>.group .sse1,
  after0F 0x70 .pshufw [wr .mmxReg .b64, rd .mmxRm .b64, rd .imm .b8] |>.np |>.group .sse1,
  after0F 0xae .ldmxcsr [rd .mem .b32] |>.digit 2 |>.memForm |>.group .sse1,
  after0F 0xae .stmxcsr [wr .mem .b32] |>.digit 3 |>.memForm |>.group .sse1,
  after0F 0xae .sfence [] |>.modrm 0xf8 |>.group .sse1,
  after0F 0xc2 .cmpps xmmUpdateImm |>.np |>.group .sse1 |>.predicate .sse,
  after0F 0xc2 .cmpss [rw .vecReg .b128, rd .vecRm .b32, rd .imm .b8] |>.pF3 |>.group .sse1
    |>.predicate .sse,
  after0F 0xc4 .pinsrw [rw .mmxReg .b64, rd .rmReg .b32, rd .imm .b8] |>.np |>.regForm
    |>.group .sse1,
  after0F 0xc4 .pinsrw [rw .mmxReg .b64, rd .mem .b16, rd .imm .b8] |>.np |>.memForm
    |>.group .sse1,
  after0F 0xc5 .pextrw [wr .reg .b32, rd .mmxRmReg .b64, rd .imm .b8] |>.np |>.regForm
    |>.group .sse1,
  after0F 0xc6 .shufps xmmUpdateImm |>.np |>.group .sse1,
  after0F 0xd7 .pmovmskb [wr .reg .b32, rd .mmxRmReg .b64] |>.np |>.regForm |>.group .sse1,
  after0F 0xe7 .movntq [wr .mem .b64, rd .mmxReg .b64] |>.np |>.memForm |>.group .sse1,
  after0F 0xf7 .maskmovq [rd .mmxReg .b64, rd .mmxRmReg .b64] |>.np |>.regForm |>.reads [.di]
    |>.group .sse1]

/-- Double-precision and wide integer vector instructions. -/
def sseDouble : List Row := [
  after0F 0x10 .movupd xmmLoad |>.p66 |>.group .sse2,
  after0F 0x10 .movsd [wr .vecReg .b128, rd .vecRm .b64] |>.pF2 |>.group .sse2,
  after0F 0x11 .movupd xmmStore |>.p66 |>.group .sse2,
  after0F 0x11 .movsd [wr .vecRm .b64, rd .vecReg .b128] |>.pF2 |>.group .sse2,
  after0F 0x12 .movlpd [rw .vecReg .b128, rd .mem .b64] |>.p66 |>.memForm |>.group .sse2,
  after0F 0x13 .movlpd [wr .mem .b64, rd .vecReg .b128] |>.p66 |>.memForm |>.group .sse2,
  after0F 0x14 .unpcklpd xmmUpdate |>.p66 |>.group .sse2,
  after0F 0x15 .unpckhpd xmmUpdate |>.p66 |>.group .sse2,
  after0F 0x16 .movhpd [rw .vecReg .b128, rd .mem .b64] |>.p66 |>.memForm |>.group .sse2,
  after0F 0x17 .movhpd [wr .mem .b64, rd .vecReg .b128] |>.p66 |>.memForm |>.group .sse2,
  after0F 0x28 .movapd xmmLoad |>.p66 |>.group .sse2,
  after0F 0x29 .movapd xmmStore |>.p66 |>.group .sse2,
  after0F 0x2a .cvtpi2pd [wr .vecReg .b128, rd .mmxRm .b64] |>.p66 |>.group .sse2,
  after0F 0x2a .cvtsi2sd [wr .vecReg .b128, rd .rm .y] |>.pF2 |>.group .sse2,
  after0F 0x2b .movntpd [wr .mem .b128, rd .vecReg .b128] |>.p66 |>.memForm |>.group .sse2,
  after0F 0x2c .cvttpd2pi [wr .mmxReg .b64, rd .vecRm .b128] |>.p66 |>.group .sse2,
  after0F 0x2c .cvttsd2si [wr .reg .y, rd .vecRm .b64] |>.pF2 |>.group .sse2,
  after0F 0x2d .cvtpd2pi [wr .mmxReg .b64, rd .vecRm .b128] |>.p66 |>.group .sse2,
  after0F 0x2d .cvtsd2si [wr .reg .y, rd .vecRm .b64] |>.pF2 |>.group .sse2,
  after0F 0x2e .ucomisd [rd .vecReg .b128, rd .vecRm .b64] |>.p66 |>.flags fcomi |>.group .sse2,
  after0F 0x2f .comisd [rd .vecReg .b128, rd .vecRm .b64] |>.p66 |>.flags fcomi |>.group .sse2,
  after0F 0x50 .movmskpd [wr .reg .y, rd .vecRmReg .b128] |>.p66 |>.regForm |>.group .sse2,
  after0F 0x51 .sqrtpd xmmLoad |>.p66 |>.group .sse2,
  after0F 0x51 .sqrtsd [wr .vecReg .b128, rd .vecRm .b64] |>.pF2 |>.group .sse2,
  after0F 0x54 .andpd xmmUpdate |>.p66 |>.group .sse2,
  after0F 0x55 .andnpd xmmUpdate |>.p66 |>.group .sse2,
  after0F 0x56 .orpd xmmUpdate |>.p66 |>.group .sse2,
  after0F 0x57 .xorpd xmmUpdate |>.p66 |>.group .sse2,
  after0F 0x58 .addpd xmmUpdate |>.p66 |>.group .sse2,
  after0F 0x58 .addsd [rw .vecReg .b128, rd .vecRm .b64] |>.pF2 |>.group .sse2,
  after0F 0x59 .mulpd xmmUpdate |>.p66 |>.group .sse2,
  after0F 0x59 .mulsd [rw .vecReg .b128, rd .vecRm .b64] |>.pF2 |>.group .sse2,
  after0F 0x5a .cvtps2pd [wr .vecReg .b128, rd .vecRm .b64] |>.np |>.group .sse2,
  after0F 0x5a .cvtpd2ps xmmLoad |>.p66 |>.group .sse2,
  after0F 0x5a .cvtss2sd [wr .vecReg .b128, rd .vecRm .b32] |>.pF3 |>.group .sse2,
  after0F 0x5a .cvtsd2ss [wr .vecReg .b128, rd .vecRm .b64] |>.pF2 |>.group .sse2,
  after0F 0x5b .cvtdq2ps xmmLoad |>.np |>.group .sse2,
  after0F 0x5b .cvtps2dq xmmLoad |>.p66 |>.group .sse2,
  after0F 0x5b .cvttps2dq xmmLoad |>.pF3 |>.group .sse2,
  after0F 0x5c .subpd xmmUpdate |>.p66 |>.group .sse2,
  after0F 0x5c .subsd [rw .vecReg .b128, rd .vecRm .b64] |>.pF2 |>.group .sse2,
  after0F 0x5d .minpd xmmUpdate |>.p66 |>.group .sse2,
  after0F 0x5d .minsd [rw .vecReg .b128, rd .vecRm .b64] |>.pF2 |>.group .sse2,
  after0F 0x5e .divpd xmmUpdate |>.p66 |>.group .sse2,
  after0F 0x5e .divsd [rw .vecReg .b128, rd .vecRm .b64] |>.pF2 |>.group .sse2,
  after0F 0x5f .maxpd xmmUpdate |>.p66 |>.group .sse2,
  after0F 0x5f .maxsd [rw .vecReg .b128, rd .vecRm .b64] |>.pF2 |>.group .sse2,
  after0F 0x6c .punpcklqdq xmmUpdate |>.p66 |>.group .sse2,
  after0F 0x6d .punpckhqdq xmmUpdate |>.p66 |>.group .sse2,
  after0F 0x6e .movd [wr .vecReg .b128, rd .rm .b32] |>.p66 |>.w0 |>.group .sse2,
  after0F 0x6e .movq [wr .vecReg .b128, rd .rm .b64] |>.p66 |>.w1 |>.group .sse2,
  after0F 0x6f .movdqa xmmLoad |>.p66 |>.group .sse2,
  after0F 0x6f .movdqu xmmLoad |>.pF3 |>.group .sse2,
  after0F 0x70 .pshufd xmmLoadImm |>.p66 |>.group .sse2,
  after0F 0x70 .pshufhw xmmLoadImm |>.pF3 |>.group .sse2,
  after0F 0x70 .pshuflw xmmLoadImm |>.pF2 |>.group .sse2,
  after0F 0x71 .psrlw [rw .vecRmReg .b128, rd .imm .b8] |>.p66 |>.digit 2 |>.regForm
    |>.group .sse2,
  after0F 0x71 .psraw [rw .vecRmReg .b128, rd .imm .b8] |>.p66 |>.digit 4 |>.regForm
    |>.group .sse2,
  after0F 0x71 .psllw [rw .vecRmReg .b128, rd .imm .b8] |>.p66 |>.digit 6 |>.regForm
    |>.group .sse2,
  after0F 0x72 .psrld [rw .vecRmReg .b128, rd .imm .b8] |>.p66 |>.digit 2 |>.regForm
    |>.group .sse2,
  after0F 0x72 .psrad [rw .vecRmReg .b128, rd .imm .b8] |>.p66 |>.digit 4 |>.regForm
    |>.group .sse2,
  after0F 0x72 .pslld [rw .vecRmReg .b128, rd .imm .b8] |>.p66 |>.digit 6 |>.regForm
    |>.group .sse2,
  after0F 0x73 .psrlq [rw .vecRmReg .b128, rd .imm .b8] |>.p66 |>.digit 2 |>.regForm
    |>.group .sse2,
  after0F 0x73 .psrldq [rw .vecRmReg .b128, rd .imm .b8] |>.p66 |>.digit 3 |>.regForm
    |>.group .sse2,
  after0F 0x73 .psllq [rw .vecRmReg .b128, rd .imm .b8] |>.p66 |>.digit 6 |>.regForm
    |>.group .sse2,
  after0F 0x73 .pslldq [rw .vecRmReg .b128, rd .imm .b8] |>.p66 |>.digit 7 |>.regForm
    |>.group .sse2,
  after0F 0x7e .movd [wr .rm .b32, rd .vecReg .b128] |>.p66 |>.w0 |>.group .sse2,
  after0F 0x7e .movq [wr .rm .b64, rd .vecReg .b128] |>.p66 |>.w1 |>.group .sse2,
  after0F 0x7e .movq [wr .vecReg .b128, rd .vecRm .b64] |>.pF3 |>.group .sse2,
  after0F 0x7f .movdqa xmmStore |>.p66 |>.group .sse2,
  after0F 0x7f .movdqu xmmStore |>.pF3 |>.group .sse2,
  after0F 0xae .lfence [] |>.modrm 0xe8 |>.group .sse2,
  after0F 0xae .mfence [] |>.modrm 0xf0 |>.group .sse2,
  after0F 0xc2 .cmppd xmmUpdateImm |>.p66 |>.group .sse2 |>.predicate .sse,
  after0F 0xc2 .cmpsd [rw .vecReg .b128, rd .vecRm .b64, rd .imm .b8] |>.pF2 |>.group .sse2
    |>.predicate .sse,
  after0F 0xc3 .movnti [wr .mem .y, rd .reg .y] |>.np |>.memForm |>.group .sse2,
  after0F 0xc4 .pinsrw [rw .vecReg .b128, rd .rmReg .b32, rd .imm .b8] |>.p66 |>.regForm
    |>.group .sse2,
  after0F 0xc4 .pinsrw [rw .vecReg .b128, rd .mem .b16, rd .imm .b8] |>.p66 |>.memForm
    |>.group .sse2,
  after0F 0xc5 .pextrw [wr .reg .b32, rd .vecRmReg .b128, rd .imm .b8] |>.p66 |>.regForm
    |>.group .sse2,
  after0F 0xc6 .shufpd xmmUpdateImm |>.p66 |>.group .sse2,
  after0F 0xd6 .movq [wr .vecRm .b64, rd .vecReg .b128] |>.p66 |>.group .sse2,
  after0F 0xd6 .movq2dq [wr .vecReg .b128, rd .mmxRmReg .b64] |>.pF3 |>.regForm |>.group .sse2,
  after0F 0xd6 .movdq2q [wr .mmxReg .b64, rd .vecRmReg .b128] |>.pF2 |>.regForm |>.group .sse2,
  after0F 0xd7 .pmovmskb [wr .reg .b32, rd .vecRmReg .b128] |>.p66 |>.regForm |>.group .sse2,
  after0F 0xe6 .cvttpd2dq xmmLoad |>.p66 |>.group .sse2,
  after0F 0xe6 .cvtdq2pd [wr .vecReg .b128, rd .vecRm .b64] |>.pF3 |>.group .sse2,
  after0F 0xe6 .cvtpd2dq xmmLoad |>.pF2 |>.group .sse2,
  after0F 0xe7 .movntdq [wr .mem .b128, rd .vecReg .b128] |>.p66 |>.memForm |>.group .sse2,
  after0F 0xf7 .maskmovdqu [rd .vecReg .b128, rd .vecRmReg .b128] |>.p66 |>.regForm |>.reads [.di]
    |>.group .sse2]

/-- Horizontal arithmetic and shuffles. -/
def sseHorizontal : List Row := [
  after0F 0x12 .movsldup xmmLoad |>.pF3 |>.group .sse3,
  after0F 0x12 .movddup [wr .vecReg .b128, rd .vecRm .b64] |>.pF2 |>.group .sse3,
  after0F 0x16 .movshdup xmmLoad |>.pF3 |>.group .sse3,
  after0F 0x7c .haddpd xmmUpdate |>.p66 |>.group .sse3,
  after0F 0x7c .haddps xmmUpdate |>.pF2 |>.group .sse3,
  after0F 0x7d .hsubpd xmmUpdate |>.p66 |>.group .sse3,
  after0F 0x7d .hsubps xmmUpdate |>.pF2 |>.group .sse3,
  after0F 0xd0 .addsubpd xmmUpdate |>.p66 |>.group .sse3,
  after0F 0xd0 .addsubps xmmUpdate |>.pF2 |>.group .sse3,
  after0F 0xf0 .lddqu [wr .vecReg .b128, rd .mem .b128] |>.pF2 |>.memForm |>.group .sse3,
  after0F3A 0x0f .palignr [rw .mmxReg .b64, rd .mmxRm .b64, rd .imm .b8] |>.np |>.group .ssse3,
  after0F3A 0x0f .palignr xmmUpdateImm |>.p66 |>.group .ssse3]

/-- Blends, extracts, inserts, rounding, string compares. -/
def sseBlend : List Row := [
  after0F38 0x10 .pblendvb [rw .vecReg .b128, rd .vecRm .b128, rd (.fixed .xmm0) .b128] |>.p66
    |>.group .sse41,
  after0F38 0x14 .blendvps [rw .vecReg .b128, rd .vecRm .b128, rd (.fixed .xmm0) .b128] |>.p66
    |>.group .sse41,
  after0F38 0x15 .blendvpd [rw .vecReg .b128, rd .vecRm .b128, rd (.fixed .xmm0) .b128] |>.p66
    |>.group .sse41,
  after0F38 0x17 .ptest [rd .vecReg .b128, rd .vecRm .b128] |>.p66 |>.flags ptest |>.group .sse41,
  after0F38 0x20 .pmovsxbw [wr .vecReg .b128, rd .vecRm .b64] |>.p66 |>.group .sse41,
  after0F38 0x21 .pmovsxbd [wr .vecReg .b128, rd .vecRm .b32] |>.p66 |>.group .sse41,
  after0F38 0x22 .pmovsxbq [wr .vecReg .b128, rd .vecRm .b16] |>.p66 |>.group .sse41,
  after0F38 0x23 .pmovsxwd [wr .vecReg .b128, rd .vecRm .b64] |>.p66 |>.group .sse41,
  after0F38 0x24 .pmovsxwq [wr .vecReg .b128, rd .vecRm .b32] |>.p66 |>.group .sse41,
  after0F38 0x25 .pmovsxdq [wr .vecReg .b128, rd .vecRm .b64] |>.p66 |>.group .sse41,
  after0F38 0x28 .pmuldq xmmUpdate |>.p66 |>.group .sse41,
  after0F38 0x29 .pcmpeqq xmmUpdate |>.p66 |>.group .sse41,
  after0F38 0x2a .movntdqa [wr .vecReg .b128, rd .mem .b128] |>.p66 |>.memForm |>.group .sse41,
  after0F38 0x2b .packusdw xmmUpdate |>.p66 |>.group .sse41,
  after0F38 0x30 .pmovzxbw [wr .vecReg .b128, rd .vecRm .b64] |>.p66 |>.group .sse41,
  after0F38 0x31 .pmovzxbd [wr .vecReg .b128, rd .vecRm .b32] |>.p66 |>.group .sse41,
  after0F38 0x32 .pmovzxbq [wr .vecReg .b128, rd .vecRm .b16] |>.p66 |>.group .sse41,
  after0F38 0x33 .pmovzxwd [wr .vecReg .b128, rd .vecRm .b64] |>.p66 |>.group .sse41,
  after0F38 0x34 .pmovzxwq [wr .vecReg .b128, rd .vecRm .b32] |>.p66 |>.group .sse41,
  after0F38 0x35 .pmovzxdq [wr .vecReg .b128, rd .vecRm .b64] |>.p66 |>.group .sse41,
  after0F38 0x37 .pcmpgtq xmmUpdate |>.p66 |>.group .sse42,
  after0F38 0x38 .pminsb xmmUpdate |>.p66 |>.group .sse41,
  after0F38 0x39 .pminsd xmmUpdate |>.p66 |>.group .sse41,
  after0F38 0x3a .pminuw xmmUpdate |>.p66 |>.group .sse41,
  after0F38 0x3b .pminud xmmUpdate |>.p66 |>.group .sse41,
  after0F38 0x3c .pmaxsb xmmUpdate |>.p66 |>.group .sse41,
  after0F38 0x3d .pmaxsd xmmUpdate |>.p66 |>.group .sse41,
  after0F38 0x3e .pmaxuw xmmUpdate |>.p66 |>.group .sse41,
  after0F38 0x3f .pmaxud xmmUpdate |>.p66 |>.group .sse41,
  after0F38 0x40 .pmulld xmmUpdate |>.p66 |>.group .sse41,
  after0F38 0x41 .phminposuw xmmLoad |>.p66 |>.group .sse41,
  after0F38 0xf0 .crc32 [rw .reg .y, rd .rm .b8] |>.pF2 |>.group .sse42,
  after0F38 0xf1 .crc32 [rw .reg .y, rd .rm .v] |>.pF2 |>.group .sse42,
  after0F3A 0x08 .roundps xmmLoadImm |>.p66 |>.group .sse41,
  after0F3A 0x09 .roundpd xmmLoadImm |>.p66 |>.group .sse41,
  after0F3A 0x0a .roundss [wr .vecReg .b128, rd .vecRm .b32, rd .imm .b8] |>.p66 |>.group .sse41,
  after0F3A 0x0b .roundsd [wr .vecReg .b128, rd .vecRm .b64, rd .imm .b8] |>.p66 |>.group .sse41,
  after0F3A 0x0c .blendps xmmUpdateImm |>.p66 |>.group .sse41,
  after0F3A 0x0d .blendpd xmmUpdateImm |>.p66 |>.group .sse41,
  after0F3A 0x0e .pblendw xmmUpdateImm |>.p66 |>.group .sse41,
  after0F3A 0x14 .pextrb [wr .rmReg .b32, rd .vecReg .b128, rd .imm .b8] |>.p66 |>.regForm
    |>.group .sse41,
  after0F3A 0x14 .pextrb [wr .mem .b8, rd .vecReg .b128, rd .imm .b8] |>.p66 |>.memForm
    |>.group .sse41,
  after0F3A 0x15 .pextrw [wr .rmReg .b32, rd .vecReg .b128, rd .imm .b8] |>.p66 |>.regForm
    |>.group .sse41,
  after0F3A 0x15 .pextrw [wr .mem .b16, rd .vecReg .b128, rd .imm .b8] |>.p66 |>.memForm
    |>.group .sse41,
  after0F3A 0x16 .pextrd [wr .rm .b32, rd .vecReg .b128, rd .imm .b8] |>.p66 |>.w0 |>.group .sse41,
  after0F3A 0x16 .pextrq [wr .rm .b64, rd .vecReg .b128, rd .imm .b8] |>.p66 |>.w1 |>.group .sse41,
  after0F3A 0x17 .extractps [wr .rm .b32, rd .vecReg .b128, rd .imm .b8] |>.p66 |>.group .sse41,
  after0F3A 0x20 .pinsrb [rw .vecReg .b128, rd .rmReg .b32, rd .imm .b8] |>.p66 |>.regForm
    |>.group .sse41,
  after0F3A 0x20 .pinsrb [rw .vecReg .b128, rd .mem .b8, rd .imm .b8] |>.p66 |>.memForm
    |>.group .sse41,
  after0F3A 0x21 .insertps [rw .vecReg .b128, rd .vecRm .b32, rd .imm .b8] |>.p66 |>.group .sse41,
  after0F3A 0x22 .pinsrd [rw .vecReg .b128, rd .rm .b32, rd .imm .b8] |>.p66 |>.w0 |>.group .sse41,
  after0F3A 0x22 .pinsrq [rw .vecReg .b128, rd .rm .b64, rd .imm .b8] |>.p66 |>.w1 |>.group .sse41,
  after0F3A 0x40 .dpps xmmUpdateImm |>.p66 |>.group .sse41,
  after0F3A 0x41 .dppd xmmUpdateImm |>.p66 |>.group .sse41,
  after0F3A 0x42 .mpsadbw xmmUpdateImm |>.p66 |>.group .sse41,
  after0F3A 0x60 .pcmpestrm [rd .vecReg .b128, rd .vecRm .b128, rd .imm .b8] |>.p66
    |>.flags pcmpstr |>.reads [.reg .eax, .reg .edx] |>.writes [.reg .xmm0] |>.group .sse42,
  after0F3A 0x61 .pcmpestri [rd .vecReg .b128, rd .vecRm .b128, rd .imm .b8] |>.p66
    |>.flags pcmpstr |>.reads [.reg .eax, .reg .edx] |>.writes [.reg .ecx] |>.group .sse42,
  after0F3A 0x62 .pcmpistrm [rd .vecReg .b128, rd .vecRm .b128, rd .imm .b8] |>.p66
    |>.flags pcmpstr |>.writes [.reg .xmm0] |>.group .sse42,
  after0F3A 0x63 .pcmpistri [rd .vecReg .b128, rd .vecRm .b128, rd .imm .b8] |>.p66
    |>.flags pcmpstr |>.writes [.reg .ecx] |>.group .sse42]

/-- Encryption rounds and carry-less multiplication. -/
def sseCrypto : List Row := [
  after0F38 0xdb .aesimc xmmLoad |>.p66 |>.group .aes,
  after0F38 0xdc .aesenc xmmUpdate |>.p66 |>.group .aes,
  after0F38 0xdd .aesenclast xmmUpdate |>.p66 |>.group .aes,
  after0F38 0xde .aesdec xmmUpdate |>.p66 |>.group .aes,
  after0F38 0xdf .aesdeclast xmmUpdate |>.p66 |>.group .aes,
  after0F3A 0x44 .pclmulqdq xmmUpdateImm |>.p66 |>.group .pclmul,
  after0F3A 0xdf .aeskeygenassist xmmLoadImm |>.p66 |>.group .aes]

/-- 128-bit vector instructions in the legacy encoding. -/
def sse : List Row :=
  sseSingle ++ sseDouble ++ sseHorizontal ++ sseBlend ++ sseCrypto

end MachineCode.X86.Table
