import MachineCode.Vocabulary

/-!
# Instruction names of the x86 family

One constructor per mnemonic, in alphabetical order of the names. The document
identifier of a mnemonic is its name with a capital first letter.
-/

namespace MachineCode.X86

/-- Names of x86 instructions. -/
inductive Mnemonic where
  | absent | aaa | aad | aam | aas | adc | adcx | add | addpd | addps | addsd | addss | addsubpd |
  addsubps | adox | aesdec | aesdeclast | aesenc | aesenclast | aesimc | aeskeygenassist | and |
  andn | andnpd | andnps | andpd | andps | arpl | bextr | blendpd | blendps | blendvpd | blendvps
  | blsi | blsmsk | blsr | bound | bsf | bsr | bswap | bt | btc | btr | bts | bzhi | call | cbw |
  cdq | cdqe | clac | clc | cld | clflush | cli | clts | cmc | cmova | cmovae | cmovb | cmovbe |
  cmove | cmovg | cmovge | cmovl | cmovle | cmovne | cmovno | cmovnp | cmovns | cmovo | cmovp |
  cmovs | cmp | cmppd | cmpps | cmpsb | cmpsd | cmpsq | cmpss | cmpsw | cmpxchg | cmpxchg16b |
  cmpxchg8b | comisd | comiss | cpuid | cqo | crc32 | cvtdq2pd | cvtdq2ps | cvtpd2dq | cvtpd2pi |
  cvtpd2ps | cvtpi2pd | cvtpi2ps | cvtps2dq | cvtps2pd | cvtps2pi | cvtsd2si | cvtsd2ss | cvtsi2sd
  | cvtsi2ss | cvtss2sd | cvtss2si | cvttpd2dq | cvttpd2pi | cvttps2dq | cvttps2pi | cvttsd2si |
  cvttss2si | cwd | cwde | daa | das | dec | div | divpd | divps | divsd | divss | dppd | dpps |
  emms | endbr32 | endbr64 | enter | extractps | f2xm1 | fabs | fadd | faddp | fbld | fbstp | fchs
  | fcmovb | fcmovbe | fcmove | fcmovnb | fcmovnbe | fcmovne | fcmovnu | fcmovu | fcom | fcomi |
  fcomip | fcomp | fcompp | fcos | fdecstp | fdiv | fdivp | fdivr | fdivrp | ffree | fiadd | ficom
  | ficomp | fidiv | fidivr | fild | fimul | fincstp | fist | fistp | fisttp | fisub | fisubr |
  fld | fld1 | fldcw | fldenv | fldl2e | fldl2t | fldlg2 | fldln2 | fldpi | fldz | fmul | fmulp |
  fnclex | fninit | fnop | fnsave | fnstcw | fnstenv | fnstsw | fpatan | fprem | fprem1 | fptan |
  frndint | frstor | fscale | fsin | fsincos | fsqrt | fst | fstp | fsub | fsubp | fsubr | fsubrp
  | ftst | fucom | fucomi | fucomip | fucomp | fucompp | fxam | fxch | fxrstor | fxrstor64 |
  fxsave | fxsave64 | fxtract | fyl2x | fyl2xp1 | haddpd | haddps | hlt | hsubpd | hsubps | idiv |
  imul | inPort | inc | insb | insd | insertps | insw | int | int1 | int3 | into | invd | invlpg |
  iret | iretd | iretq | ja | jae | jb | jbe | jcxz | je | jecxz | jg | jge | jl | jle | jmp | jne
  | jno | jnp | jns | jo | jp | jrcxz | js | kaddb | kaddd | kaddq | kaddw | kandb | kandd |
  kandnb | kandnd | kandnq | kandnw | kandq | kandw | kmovb | kmovd | kmovq | kmovw | knotb |
  knotd | knotq | knotw | korb | kord | korq | kortestb | kortestd | kortestq | kortestw | korw |
  ktestb | ktestd | ktestq | ktestw | kxnorb | kxnord | kxnorq | kxnorw | kxorb | kxord | kxorq |
  kxorw | lahf | lar | lcall | lddqu | ldmxcsr | lds | lea | leave | les | lfence | lfs | lgdt |
  lgs | lidt | ljmp | lldt | lmsw | lodsb | lodsd | lodsq | lodsw | loop | loope | loopne | lsl |
  lss | ltr | lzcnt | maskmovdqu | maskmovq | maxpd | maxps | maxsd | maxss | mfence | minpd |
  minps | minsd | minss | monitor | mov | movabs | movapd | movaps | movbe | movd | movddup |
  movdq2q | movdqa | movdqu | movhlps | movhpd | movhps | movlhps | movlpd | movlps | movmskpd |
  movmskps | movntdq | movntdqa | movnti | movntpd | movntps | movntq | movq | movq2dq | movsb |
  movsd | movshdup | movsldup | movsq | movss | movsw | movsx | movsxd | movupd | movups | movzx |
  mpsadbw | mul | mulpd | mulps | mulsd | mulss | mulx | mwait | neg | nop | not | or | orpd |
  orps | outPort | outsb | outsd | outsw | pabsb | pabsd | pabsw | packssdw | packsswb | packusdw
  | packuswb | paddb | paddd | paddq | paddsb | paddsw | paddusb | paddusw | paddw | palignr |
  pand | pandn | pause | pavgb | pavgw | pblendvb | pblendw | pclmulqdq | pcmpeqb | pcmpeqd |
  pcmpeqq | pcmpeqw | pcmpestri | pcmpestrm | pcmpgtb | pcmpgtd | pcmpgtq | pcmpgtw | pcmpistri |
  pcmpistrm | pdep | pext | pextrb | pextrd | pextrq | pextrw | phaddd | phaddsw | phaddw |
  phminposuw | phsubd | phsubsw | phsubw | pinsrb | pinsrd | pinsrq | pinsrw | pmaddubsw | pmaddwd
  | pmaxsb | pmaxsd | pmaxsw | pmaxub | pmaxud | pmaxuw | pminsb | pminsd | pminsw | pminub |
  pminud | pminuw | pmovmskb | pmovsxbd | pmovsxbq | pmovsxbw | pmovsxdq | pmovsxwd | pmovsxwq |
  pmovzxbd | pmovzxbq | pmovzxbw | pmovzxdq | pmovzxwd | pmovzxwq | pmuldq | pmulhrsw | pmulhuw |
  pmulhw | pmulld | pmullw | pmuludq | pop | popal | popaw | popcnt | popf | popfd | popfq | por |
  prefetch | prefetchnta | prefetcht0 | prefetcht1 | prefetcht2 | prefetchw | psadbw | pshufb |
  pshufd | pshufhw | pshuflw | pshufw | psignb | psignd | psignw | pslld | pslldq | psllq | psllw
  | psrad | psraw | psrld | psrldq | psrlq | psrlw | psubb | psubd | psubq | psubsb | psubsw |
  psubusb | psubusw | psubw | ptest | punpckhbw | punpckhdq | punpckhqdq | punpckhwd | punpcklbw |
  punpckldq | punpcklqdq | punpcklwd | push | pushal | pushaw | pushf | pushfd | pushfq | pxor |
  rcl | rcpps | rcpss | rcr | rdfsbase | rdgsbase | rdmsr | rdpmc | rdrand | rdseed | rdtsc |
  rdtscp | ret | retf | rol | ror | rorx | roundpd | roundps | roundsd | roundss | rsqrtps |
  rsqrtss | sahf | sal | salc | sar | sarx | sbb | scasb | scasd | scasq | scasw | seta | setae |
  setb | setbe | sete | setg | setge | setl | setle | setne | setno | setnp | setns | seto | setp
  | sets | sfence | sgdt | shl | shld | shlx | shr | shrd | shrx | shufpd | shufps | sidt | sldt |
  smsw | sqrtpd | sqrtps | sqrtsd | sqrtss | stac | stc | std | sti | stmxcsr | stosb | stosd |
  stosq | stosw | str | sub | subpd | subps | subsd | subss | swapgs | syscall | sysenter |
  sysexit | sysret | test | tzcnt | ucomisd | ucomiss | ud0 | ud1 | ud2 | unpckhpd | unpckhps |
  unpcklpd | unpcklps | vaddpd | vaddps | vaddsd | vaddss | vaddsubpd | vaddsubps | vaesdec |
  vaesdeclast | vaesenc | vaesenclast | vaesimc | vaeskeygenassist | valignd | valignq | vandnpd |
  vandnps | vandpd | vandps | vblendpd | vblendps | vblendvpd | vblendvps | vbroadcastf128 |
  vbroadcasti128 | vbroadcastsd | vbroadcastss | vcmppd | vcmpps | vcmpsd | vcmpss | vcomisd |
  vcomiss | vcvtdq2pd | vcvtdq2ps | vcvtpd2dq | vcvtpd2ps | vcvtps2dq | vcvtps2pd | vcvtsd2si |
  vcvtsd2ss | vcvtsi2sd | vcvtsi2ss | vcvtss2sd | vcvtss2si | vcvttpd2dq | vcvttps2dq | vcvttsd2si
  | vcvttss2si | vdivpd | vdivps | vdivsd | vdivss | vdppd | vdpps | verr | verw | vextractf128 |
  vextractf32x4 | vextractf64x4 | vextracti128 | vextracti32x4 | vextracti64x4 | vextractps |
  vfmadd132pd | vfmadd132ps | vfmadd132sd | vfmadd132ss | vfmadd213pd | vfmadd213ps | vfmadd213sd
  | vfmadd213ss | vfmadd231pd | vfmadd231ps | vfmadd231sd | vfmadd231ss | vfmaddpd | vfmaddps |
  vfmaddsd | vfmaddss | vfmaddsub132pd | vfmaddsub132ps | vfmaddsub213pd | vfmaddsub213ps |
  vfmaddsub231pd | vfmaddsub231ps | vfmsub132pd | vfmsub132ps | vfmsub132sd | vfmsub132ss |
  vfmsub213pd | vfmsub213ps | vfmsub213sd | vfmsub213ss | vfmsub231pd | vfmsub231ps | vfmsub231sd
  | vfmsub231ss | vfmsubadd132pd | vfmsubadd132ps | vfmsubadd213pd | vfmsubadd213ps |
  vfmsubadd231pd | vfmsubadd231ps | vfnmadd132pd | vfnmadd132ps | vfnmadd132sd | vfnmadd132ss |
  vfnmadd213pd | vfnmadd213ps | vfnmadd213sd | vfnmadd213ss | vfnmadd231pd | vfnmadd231ps |
  vfnmadd231sd | vfnmadd231ss | vfnmsub132pd | vfnmsub132ps | vfnmsub132sd | vfnmsub132ss |
  vfnmsub213pd | vfnmsub213ps | vfnmsub213sd | vfnmsub213ss | vfnmsub231pd | vfnmsub231ps |
  vfnmsub231sd | vfnmsub231ss | vfrczpd | vfrczps | vfrczsd | vfrczss | vhaddpd | vhaddps |
  vhsubpd | vhsubps | vinsertf128 | vinsertf32x4 | vinsertf64x4 | vinserti128 | vinserti32x4 |
  vinserti64x4 | vinsertps | vlddqu | vmaskmovdqu | vmaskmovpd | vmaskmovps | vmaxpd | vmaxps |
  vmaxsd | vmaxss | vmcall | vmclear | vminpd | vminps | vminsd | vminss | vmlaunch | vmovapd |
  vmovaps | vmovd | vmovddup | vmovdqa | vmovdqa32 | vmovdqa64 | vmovdqu | vmovdqu16 | vmovdqu32 |
  vmovdqu64 | vmovdqu8 | vmovhlps | vmovhpd | vmovhps | vmovlhps | vmovlpd | vmovlps | vmovmskpd |
  vmovmskps | vmovntdq | vmovntdqa | vmovntpd | vmovntps | vmovq | vmovsd | vmovshdup | vmovsldup
  | vmovss | vmovupd | vmovups | vmpsadbw | vmptrld | vmptrst | vmresume | vmulpd | vmulps |
  vmulsd | vmulss | vmxoff | vmxon | vorpd | vorps | vpabsb | vpabsd | vpabsq | vpabsw | vpackssdw
  | vpacksswb | vpackusdw | vpackuswb | vpaddb | vpaddd | vpaddq | vpaddsb | vpaddsw | vpaddusb |
  vpaddusw | vpaddw | vpalignr | vpand | vpandd | vpandn | vpandnd | vpandnq | vpandq | vpavgb |
  vpavgw | vpblendd | vpblendmd | vpblendmq | vpblendvb | vpblendw | vpbroadcastb | vpbroadcastd |
  vpbroadcastq | vpbroadcastw | vpclmulqdq | vpcmov | vpcmpd | vpcmpeqb | vpcmpeqd | vpcmpeqq |
  vpcmpeqw | vpcmpgtb | vpcmpgtd | vpcmpgtq | vpcmpgtw | vpcmpq | vpcmpud | vpcmpuq | vpcomb |
  vpcomd | vpcomq | vpcomub | vpcomud | vpcomuq | vpcomuw | vpcomw | vperm2f128 | vperm2i128 |
  vpermd | vpermilpd | vpermilps | vpermpd | vpermps | vpermq | vpextrb | vpextrd | vpextrq |
  vpextrw | vphaddbd | vphaddbq | vphaddbw | vphaddd | vphadddq | vphaddsw | vphaddubd | vphaddubq
  | vphaddubw | vphaddudq | vphadduwd | vphadduwq | vphaddw | vphaddwd | vphaddwq | vphsubbw |
  vphsubd | vphsubdq | vphsubsw | vphsubw | vphsubwd | vpinsrb | vpinsrd | vpinsrq | vpmacsdd |
  vpmacsdqh | vpmacsdql | vpmacssdd | vpmacssdqh | vpmacssdql | vpmacsswd | vpmacssww | vpmacswd |
  vpmacsww | vpmadcsswd | vpmadcswd | vpmaddubsw | vpmaddwd | vpmaskmovd | vpmaskmovq | vpmaxsb |
  vpmaxsd | vpmaxsq | vpmaxsw | vpmaxub | vpmaxud | vpmaxuw | vpminsb | vpminsd | vpminsq |
  vpminsw | vpminub | vpminud | vpminuw | vpmovmskb | vpmovsxbd | vpmovsxbq | vpmovsxbw |
  vpmovsxdq | vpmovsxwd | vpmovsxwq | vpmovzxbd | vpmovzxbq | vpmovzxbw | vpmovzxdq | vpmovzxwd |
  vpmovzxwq | vpmuldq | vpmulhrsw | vpmulhuw | vpmulhw | vpmulld | vpmullq | vpmullw | vpmuludq |
  vpor | vpord | vporq | vpperm | vprold | vprolq | vprord | vprorq | vprotb | vprotd | vprotq |
  vprotw | vpsadbw | vpshab | vpshad | vpshaq | vpshaw | vpshlb | vpshld | vpshlq | vpshlw |
  vpshufb | vpshufd | vpshufhw | vpshuflw | vpsignb | vpsignd | vpsignw | vpslld | vpslldq |
  vpsllq | vpsllvd | vpsllvq | vpsllw | vpsrad | vpsraq | vpsravd | vpsravq | vpsraw | vpsrld |
  vpsrldq | vpsrlq | vpsrlvd | vpsrlvq | vpsrlw | vpsubb | vpsubd | vpsubq | vpsubsb | vpsubsw |
  vpsubusb | vpsubusw | vpsubw | vpternlogd | vpternlogq | vptest | vpunpckhbw | vpunpckhdq |
  vpunpckhqdq | vpunpckhwd | vpunpcklbw | vpunpckldq | vpunpcklqdq | vpunpcklwd | vpxor | vpxord |
  vpxorq | vrcpps | vrcpss | vroundpd | vroundps | vroundsd | vroundss | vrsqrtps | vrsqrtss |
  vshufpd | vshufps | vsqrtpd | vsqrtps | vsqrtsd | vsqrtss | vsubpd | vsubps | vsubsd | vsubss |
  vtestpd | vtestps | vucomisd | vucomiss | vunpckhpd | vunpckhps | vunpcklpd | vunpcklps | vxorpd
  | vxorps | vzeroall | vzeroupper | wait | wbinvd | wrfsbase | wrgsbase | wrmsr | xabort | xadd |
  xbegin | xchg | xend | xgetbv | xlatb | xor | xorpd | xorps | xrstor | xrstor64 | xsave |
  xsave64 | xsaveopt | xsetbv | xtest
deriving DecidableEq

namespace Mnemonic

/-- Display names, in the order of the constructors. -/
def names : Array String := #[
  "", "aaa", "aad", "aam", "aas", "adc", "adcx", "add", "addpd", "addps", "addsd", "addss",
  "addsubpd", "addsubps", "adox", "aesdec", "aesdeclast", "aesenc", "aesenclast", "aesimc",
  "aeskeygenassist", "and", "andn", "andnpd", "andnps", "andpd", "andps", "arpl", "bextr",
  "blendpd", "blendps", "blendvpd", "blendvps", "blsi", "blsmsk", "blsr", "bound", "bsf", "bsr",
  "bswap", "bt", "btc", "btr", "bts", "bzhi", "call", "cbw", "cdq", "cdqe", "clac", "clc", "cld",
  "clflush", "cli", "clts", "cmc", "cmova", "cmovae", "cmovb", "cmovbe", "cmove", "cmovg",
  "cmovge", "cmovl", "cmovle", "cmovne", "cmovno", "cmovnp", "cmovns", "cmovo", "cmovp", "cmovs",
  "cmp", "cmppd", "cmpps", "cmpsb", "cmpsd", "cmpsq", "cmpss", "cmpsw", "cmpxchg", "cmpxchg16b",
  "cmpxchg8b", "comisd", "comiss", "cpuid", "cqo", "crc32", "cvtdq2pd", "cvtdq2ps", "cvtpd2dq",
  "cvtpd2pi", "cvtpd2ps", "cvtpi2pd", "cvtpi2ps", "cvtps2dq", "cvtps2pd", "cvtps2pi", "cvtsd2si",
  "cvtsd2ss", "cvtsi2sd", "cvtsi2ss", "cvtss2sd", "cvtss2si", "cvttpd2dq", "cvttpd2pi",
  "cvttps2dq", "cvttps2pi", "cvttsd2si", "cvttss2si", "cwd", "cwde", "daa", "das", "dec", "div",
  "divpd", "divps", "divsd", "divss", "dppd", "dpps", "emms", "endbr32", "endbr64", "enter",
  "extractps", "f2xm1", "fabs", "fadd", "faddp", "fbld", "fbstp", "fchs", "fcmovb", "fcmovbe",
  "fcmove", "fcmovnb", "fcmovnbe", "fcmovne", "fcmovnu", "fcmovu", "fcom", "fcomi", "fcomip",
  "fcomp", "fcompp", "fcos", "fdecstp", "fdiv", "fdivp", "fdivr", "fdivrp", "ffree", "fiadd",
  "ficom", "ficomp", "fidiv", "fidivr", "fild", "fimul", "fincstp", "fist", "fistp", "fisttp",
  "fisub", "fisubr", "fld", "fld1", "fldcw", "fldenv", "fldl2e", "fldl2t", "fldlg2", "fldln2",
  "fldpi", "fldz", "fmul", "fmulp", "fnclex", "fninit", "fnop", "fnsave", "fnstcw", "fnstenv",
  "fnstsw", "fpatan", "fprem", "fprem1", "fptan", "frndint", "frstor", "fscale", "fsin",
  "fsincos", "fsqrt", "fst", "fstp", "fsub", "fsubp", "fsubr", "fsubrp", "ftst", "fucom",
  "fucomi", "fucomip", "fucomp", "fucompp", "fxam", "fxch", "fxrstor", "fxrstor64", "fxsave",
  "fxsave64", "fxtract", "fyl2x", "fyl2xp1", "haddpd", "haddps", "hlt", "hsubpd", "hsubps",
  "idiv", "imul", "in", "inc", "insb", "insd", "insertps", "insw", "int", "int1", "int3", "into",
  "invd", "invlpg", "iret", "iretd", "iretq", "ja", "jae", "jb", "jbe", "jcxz", "je", "jecxz",
  "jg", "jge", "jl", "jle", "jmp", "jne", "jno", "jnp", "jns", "jo", "jp", "jrcxz", "js", "kaddb",
  "kaddd", "kaddq", "kaddw", "kandb", "kandd", "kandnb", "kandnd", "kandnq", "kandnw", "kandq",
  "kandw", "kmovb", "kmovd", "kmovq", "kmovw", "knotb", "knotd", "knotq", "knotw", "korb", "kord",
  "korq", "kortestb", "kortestd", "kortestq", "kortestw", "korw", "ktestb", "ktestd", "ktestq",
  "ktestw", "kxnorb", "kxnord", "kxnorq", "kxnorw", "kxorb", "kxord", "kxorq", "kxorw", "lahf",
  "lar", "lcall", "lddqu", "ldmxcsr", "lds", "lea", "leave", "les", "lfence", "lfs", "lgdt",
  "lgs", "lidt", "ljmp", "lldt", "lmsw", "lodsb", "lodsd", "lodsq", "lodsw", "loop", "loope",
  "loopne", "lsl", "lss", "ltr", "lzcnt", "maskmovdqu", "maskmovq", "maxpd", "maxps", "maxsd",
  "maxss", "mfence", "minpd", "minps", "minsd", "minss", "monitor", "mov", "movabs", "movapd",
  "movaps", "movbe", "movd", "movddup", "movdq2q", "movdqa", "movdqu", "movhlps", "movhpd",
  "movhps", "movlhps", "movlpd", "movlps", "movmskpd", "movmskps", "movntdq", "movntdqa",
  "movnti", "movntpd", "movntps", "movntq", "movq", "movq2dq", "movsb", "movsd", "movshdup",
  "movsldup", "movsq", "movss", "movsw", "movsx", "movsxd", "movupd", "movups", "movzx",
  "mpsadbw", "mul", "mulpd", "mulps", "mulsd", "mulss", "mulx", "mwait", "neg", "nop", "not",
  "or", "orpd", "orps", "out", "outsb", "outsd", "outsw", "pabsb", "pabsd", "pabsw", "packssdw",
  "packsswb", "packusdw", "packuswb", "paddb", "paddd", "paddq", "paddsb", "paddsw", "paddusb",
  "paddusw", "paddw", "palignr", "pand", "pandn", "pause", "pavgb", "pavgw", "pblendvb",
  "pblendw", "pclmulqdq", "pcmpeqb", "pcmpeqd", "pcmpeqq", "pcmpeqw", "pcmpestri", "pcmpestrm",
  "pcmpgtb", "pcmpgtd", "pcmpgtq", "pcmpgtw", "pcmpistri", "pcmpistrm", "pdep", "pext", "pextrb",
  "pextrd", "pextrq", "pextrw", "phaddd", "phaddsw", "phaddw", "phminposuw", "phsubd", "phsubsw",
  "phsubw", "pinsrb", "pinsrd", "pinsrq", "pinsrw", "pmaddubsw", "pmaddwd", "pmaxsb", "pmaxsd",
  "pmaxsw", "pmaxub", "pmaxud", "pmaxuw", "pminsb", "pminsd", "pminsw", "pminub", "pminud",
  "pminuw", "pmovmskb", "pmovsxbd", "pmovsxbq", "pmovsxbw", "pmovsxdq", "pmovsxwd", "pmovsxwq",
  "pmovzxbd", "pmovzxbq", "pmovzxbw", "pmovzxdq", "pmovzxwd", "pmovzxwq", "pmuldq", "pmulhrsw",
  "pmulhuw", "pmulhw", "pmulld", "pmullw", "pmuludq", "pop", "popal", "popaw", "popcnt", "popf",
  "popfd", "popfq", "por", "prefetch", "prefetchnta", "prefetcht0", "prefetcht1", "prefetcht2",
  "prefetchw", "psadbw", "pshufb", "pshufd", "pshufhw", "pshuflw", "pshufw", "psignb", "psignd",
  "psignw", "pslld", "pslldq", "psllq", "psllw", "psrad", "psraw", "psrld", "psrldq", "psrlq",
  "psrlw", "psubb", "psubd", "psubq", "psubsb", "psubsw", "psubusb", "psubusw", "psubw", "ptest",
  "punpckhbw", "punpckhdq", "punpckhqdq", "punpckhwd", "punpcklbw", "punpckldq", "punpcklqdq",
  "punpcklwd", "push", "pushal", "pushaw", "pushf", "pushfd", "pushfq", "pxor", "rcl", "rcpps",
  "rcpss", "rcr", "rdfsbase", "rdgsbase", "rdmsr", "rdpmc", "rdrand", "rdseed", "rdtsc", "rdtscp",
  "ret", "retf", "rol", "ror", "rorx", "roundpd", "roundps", "roundsd", "roundss", "rsqrtps",
  "rsqrtss", "sahf", "sal", "salc", "sar", "sarx", "sbb", "scasb", "scasd", "scasq", "scasw",
  "seta", "setae", "setb", "setbe", "sete", "setg", "setge", "setl", "setle", "setne", "setno",
  "setnp", "setns", "seto", "setp", "sets", "sfence", "sgdt", "shl", "shld", "shlx", "shr",
  "shrd", "shrx", "shufpd", "shufps", "sidt", "sldt", "smsw", "sqrtpd", "sqrtps", "sqrtsd",
  "sqrtss", "stac", "stc", "std", "sti", "stmxcsr", "stosb", "stosd", "stosq", "stosw", "str",
  "sub", "subpd", "subps", "subsd", "subss", "swapgs", "syscall", "sysenter", "sysexit", "sysret",
  "test", "tzcnt", "ucomisd", "ucomiss", "ud0", "ud1", "ud2", "unpckhpd", "unpckhps", "unpcklpd",
  "unpcklps", "vaddpd", "vaddps", "vaddsd", "vaddss", "vaddsubpd", "vaddsubps", "vaesdec",
  "vaesdeclast", "vaesenc", "vaesenclast", "vaesimc", "vaeskeygenassist", "valignd", "valignq",
  "vandnpd", "vandnps", "vandpd", "vandps", "vblendpd", "vblendps", "vblendvpd", "vblendvps",
  "vbroadcastf128", "vbroadcasti128", "vbroadcastsd", "vbroadcastss", "vcmppd", "vcmpps",
  "vcmpsd", "vcmpss", "vcomisd", "vcomiss", "vcvtdq2pd", "vcvtdq2ps", "vcvtpd2dq", "vcvtpd2ps",
  "vcvtps2dq", "vcvtps2pd", "vcvtsd2si", "vcvtsd2ss", "vcvtsi2sd", "vcvtsi2ss", "vcvtss2sd",
  "vcvtss2si", "vcvttpd2dq", "vcvttps2dq", "vcvttsd2si", "vcvttss2si", "vdivpd", "vdivps",
  "vdivsd", "vdivss", "vdppd", "vdpps", "verr", "verw", "vextractf128", "vextractf32x4",
  "vextractf64x4", "vextracti128", "vextracti32x4", "vextracti64x4", "vextractps", "vfmadd132pd",
  "vfmadd132ps", "vfmadd132sd", "vfmadd132ss", "vfmadd213pd", "vfmadd213ps", "vfmadd213sd",
  "vfmadd213ss", "vfmadd231pd", "vfmadd231ps", "vfmadd231sd", "vfmadd231ss", "vfmaddpd",
  "vfmaddps", "vfmaddsd", "vfmaddss", "vfmaddsub132pd", "vfmaddsub132ps", "vfmaddsub213pd",
  "vfmaddsub213ps", "vfmaddsub231pd", "vfmaddsub231ps", "vfmsub132pd", "vfmsub132ps",
  "vfmsub132sd", "vfmsub132ss", "vfmsub213pd", "vfmsub213ps", "vfmsub213sd", "vfmsub213ss",
  "vfmsub231pd", "vfmsub231ps", "vfmsub231sd", "vfmsub231ss", "vfmsubadd132pd", "vfmsubadd132ps",
  "vfmsubadd213pd", "vfmsubadd213ps", "vfmsubadd231pd", "vfmsubadd231ps", "vfnmadd132pd",
  "vfnmadd132ps", "vfnmadd132sd", "vfnmadd132ss", "vfnmadd213pd", "vfnmadd213ps", "vfnmadd213sd",
  "vfnmadd213ss", "vfnmadd231pd", "vfnmadd231ps", "vfnmadd231sd", "vfnmadd231ss", "vfnmsub132pd",
  "vfnmsub132ps", "vfnmsub132sd", "vfnmsub132ss", "vfnmsub213pd", "vfnmsub213ps", "vfnmsub213sd",
  "vfnmsub213ss", "vfnmsub231pd", "vfnmsub231ps", "vfnmsub231sd", "vfnmsub231ss", "vfrczpd",
  "vfrczps", "vfrczsd", "vfrczss", "vhaddpd", "vhaddps", "vhsubpd", "vhsubps", "vinsertf128",
  "vinsertf32x4", "vinsertf64x4", "vinserti128", "vinserti32x4", "vinserti64x4", "vinsertps",
  "vlddqu", "vmaskmovdqu", "vmaskmovpd", "vmaskmovps", "vmaxpd", "vmaxps", "vmaxsd", "vmaxss",
  "vmcall", "vmclear", "vminpd", "vminps", "vminsd", "vminss", "vmlaunch", "vmovapd", "vmovaps",
  "vmovd", "vmovddup", "vmovdqa", "vmovdqa32", "vmovdqa64", "vmovdqu", "vmovdqu16", "vmovdqu32",
  "vmovdqu64", "vmovdqu8", "vmovhlps", "vmovhpd", "vmovhps", "vmovlhps", "vmovlpd", "vmovlps",
  "vmovmskpd", "vmovmskps", "vmovntdq", "vmovntdqa", "vmovntpd", "vmovntps", "vmovq", "vmovsd",
  "vmovshdup", "vmovsldup", "vmovss", "vmovupd", "vmovups", "vmpsadbw", "vmptrld", "vmptrst",
  "vmresume", "vmulpd", "vmulps", "vmulsd", "vmulss", "vmxoff", "vmxon", "vorpd", "vorps",
  "vpabsb", "vpabsd", "vpabsq", "vpabsw", "vpackssdw", "vpacksswb", "vpackusdw", "vpackuswb",
  "vpaddb", "vpaddd", "vpaddq", "vpaddsb", "vpaddsw", "vpaddusb", "vpaddusw", "vpaddw",
  "vpalignr", "vpand", "vpandd", "vpandn", "vpandnd", "vpandnq", "vpandq", "vpavgb", "vpavgw",
  "vpblendd", "vpblendmd", "vpblendmq", "vpblendvb", "vpblendw", "vpbroadcastb", "vpbroadcastd",
  "vpbroadcastq", "vpbroadcastw", "vpclmulqdq", "vpcmov", "vpcmpd", "vpcmpeqb", "vpcmpeqd",
  "vpcmpeqq", "vpcmpeqw", "vpcmpgtb", "vpcmpgtd", "vpcmpgtq", "vpcmpgtw", "vpcmpq", "vpcmpud",
  "vpcmpuq", "vpcomb", "vpcomd", "vpcomq", "vpcomub", "vpcomud", "vpcomuq", "vpcomuw", "vpcomw",
  "vperm2f128", "vperm2i128", "vpermd", "vpermilpd", "vpermilps", "vpermpd", "vpermps", "vpermq",
  "vpextrb", "vpextrd", "vpextrq", "vpextrw", "vphaddbd", "vphaddbq", "vphaddbw", "vphaddd",
  "vphadddq", "vphaddsw", "vphaddubd", "vphaddubq", "vphaddubw", "vphaddudq", "vphadduwd",
  "vphadduwq", "vphaddw", "vphaddwd", "vphaddwq", "vphsubbw", "vphsubd", "vphsubdq", "vphsubsw",
  "vphsubw", "vphsubwd", "vpinsrb", "vpinsrd", "vpinsrq", "vpmacsdd", "vpmacsdqh", "vpmacsdql",
  "vpmacssdd", "vpmacssdqh", "vpmacssdql", "vpmacsswd", "vpmacssww", "vpmacswd", "vpmacsww",
  "vpmadcsswd", "vpmadcswd", "vpmaddubsw", "vpmaddwd", "vpmaskmovd", "vpmaskmovq", "vpmaxsb",
  "vpmaxsd", "vpmaxsq", "vpmaxsw", "vpmaxub", "vpmaxud", "vpmaxuw", "vpminsb", "vpminsd",
  "vpminsq", "vpminsw", "vpminub", "vpminud", "vpminuw", "vpmovmskb", "vpmovsxbd", "vpmovsxbq",
  "vpmovsxbw", "vpmovsxdq", "vpmovsxwd", "vpmovsxwq", "vpmovzxbd", "vpmovzxbq", "vpmovzxbw",
  "vpmovzxdq", "vpmovzxwd", "vpmovzxwq", "vpmuldq", "vpmulhrsw", "vpmulhuw", "vpmulhw", "vpmulld",
  "vpmullq", "vpmullw", "vpmuludq", "vpor", "vpord", "vporq", "vpperm", "vprold", "vprolq",
  "vprord", "vprorq", "vprotb", "vprotd", "vprotq", "vprotw", "vpsadbw", "vpshab", "vpshad",
  "vpshaq", "vpshaw", "vpshlb", "vpshld", "vpshlq", "vpshlw", "vpshufb", "vpshufd", "vpshufhw",
  "vpshuflw", "vpsignb", "vpsignd", "vpsignw", "vpslld", "vpslldq", "vpsllq", "vpsllvd",
  "vpsllvq", "vpsllw", "vpsrad", "vpsraq", "vpsravd", "vpsravq", "vpsraw", "vpsrld", "vpsrldq",
  "vpsrlq", "vpsrlvd", "vpsrlvq", "vpsrlw", "vpsubb", "vpsubd", "vpsubq", "vpsubsb", "vpsubsw",
  "vpsubusb", "vpsubusw", "vpsubw", "vpternlogd", "vpternlogq", "vptest", "vpunpckhbw",
  "vpunpckhdq", "vpunpckhqdq", "vpunpckhwd", "vpunpcklbw", "vpunpckldq", "vpunpcklqdq",
  "vpunpcklwd", "vpxor", "vpxord", "vpxorq", "vrcpps", "vrcpss", "vroundpd", "vroundps",
  "vroundsd", "vroundss", "vrsqrtps", "vrsqrtss", "vshufpd", "vshufps", "vsqrtpd", "vsqrtps",
  "vsqrtsd", "vsqrtss", "vsubpd", "vsubps", "vsubsd", "vsubss", "vtestpd", "vtestps", "vucomisd",
  "vucomiss", "vunpckhpd", "vunpckhps", "vunpcklpd", "vunpcklps", "vxorpd", "vxorps", "vzeroall",
  "vzeroupper", "wait", "wbinvd", "wrfsbase", "wrgsbase", "wrmsr", "xabort", "xadd", "xbegin",
  "xchg", "xend", "xgetbv", "xlatb", "xor", "xorpd", "xorps", "xrstor", "xrstor64", "xsave",
  "xsave64", "xsaveopt", "xsetbv", "xtest"]

instance : Vocabulary Mnemonic where
  absent := .absent
  all := (List.range 1097).map fun i => Mnemonic.ofNat (i + 1)
  name m := names.getD m.ctorIdx ""
  tag m := if m = .absent then "Invalid" else capitalize (names.getD m.ctorIdx "")

end Mnemonic

end MachineCode.X86
