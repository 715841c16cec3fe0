import MachineCode.X86.Table.Shape

/-!
# System instructions

Descriptor tables, control and debug registers, virtual machines, processor
state, time stamps, transactions, and the instructions that do nothing or are
undefined on purpose.
-/

namespace MachineCode.X86.Table

open Row Slot FlagEffects

/-- System instructions. -/
def system : List Row := [
  primary 0x62 .bound [rd .reg .v, rd .mem .v] |>.memForm |>.not64,
  primary 0x63 .arpl [rw .rm .b16, rd .reg .b16] |>.not64 |>.flags zfOnly,
  primary 0x90 .nop [] |>.withoutB,
  primary 0x90 .pause [] |>.pF3 |>.withoutB,
  primary 0x9b .wait [],
  primary 0xc6 .xabort [rd .imm .b8] |>.modrm 0xf8 |>.writes [.reg .eax] |>.group .rtm,
  primary 0xc7 .xbegin [rd .rel .z] |>.modrm 0xf8 |>.writes [.reg .eax] |>.group .rtm,
  primary 0xf4 .hlt [] |>.group .privilege,
  primary 0xfa .cli [] |>.flags cli,
  primary 0xfb .sti [] |>.flags sti,
  after0F 0x00 .sldt [wr .rm .b16] |>.digit 0,
  after0F 0x00 .str [wr .rm .b16] |>.digit 1,
  after0F 0x00 .lldt [rd .rm .b16] |>.digit 2 |>.group .privilege,
  after0F 0x00 .ltr [rd .rm .b16] |>.digit 3 |>.group .privilege,
  after0F 0x00 .verr [rd .rm .b16] |>.digit 4 |>.flags zfOnly,
  after0F 0x00 .verw [rd .rm .b16] |>.digit 5 |>.flags zfOnly,
  after0F 0x01 .sgdt [wr .mem .descriptor] |>.digit 0 |>.memForm,
  after0F 0x01 .sidt [wr .mem .descriptor] |>.digit 1 |>.memForm,
  after0F 0x01 .lgdt [rd .mem .descriptor] |>.digit 2 |>.memForm |>.group .privilege,
  after0F 0x01 .lidt [rd .mem .descriptor] |>.digit 3 |>.memForm |>.group .privilege,
  after0F 0x01 .smsw [wr .rm .b16] |>.digit 4,
  after0F 0x01 .lmsw [rd .rm .b16] |>.digit 6 |>.group .privilege,
  after0F 0x01 .invlpg [ea .mem .unsized] |>.digit 7 |>.memForm |>.group .privilege,
  after0F 0x01 .vmcall [] |>.modrm 0xc1 |>.flags vmx |>.group .vm,
  after0F 0x01 .vmlaunch [] |>.modrm 0xc2 |>.flags vmx |>.group .vm,
  after0F 0x01 .vmresume [] |>.modrm 0xc3 |>.flags vmx |>.group .vm,
  after0F 0x01 .vmxoff [] |>.modrm 0xc4 |>.flags vmx |>.group .vm,
  after0F 0x01 .monitor [] |>.modrm 0xc8 |>.reads [.reg .rax, .reg .ecx, .reg .edx],
  after0F 0x01 .mwait [] |>.modrm 0xc9 |>.reads [.reg .eax, .reg .ecx],
  after0F 0x01 .clac [] |>.modrm 0xca |>.flags alignmentCheck,
  after0F 0x01 .stac [] |>.modrm 0xcb |>.flags alignmentCheck,
  after0F 0x01 .xgetbv [] |>.modrm 0xd0 |>.reads [.reg .ecx] |>.writes [.reg .eax, .reg .edx],
  after0F 0x01 .xsetbv [] |>.modrm 0xd1 |>.reads [.reg .ecx, .reg .eax, .reg .edx]
    |>.group .privilege,
  after0F 0x01 .xend [] |>.modrm 0xd5 |>.group .rtm,
  after0F 0x01 .xtest [] |>.modrm 0xd6 |>.flags zfCf |>.group .rtm,
  after0F 0x01 .swapgs [] |>.modrm 0xf8 |>.only64 |>.group .privilege,
  after0F 0x01 .rdtscp [] |>.modrm 0xf9 |>.writes [.reg .eax, .reg .edx, .reg .ecx],
  after0F 0x02 .lar [wr .reg .v, rd .rm .b16] |>.flags zfOnly,
  after0F 0x03 .lsl [wr .reg .v, rd .rm .b16] |>.flags zfOnly,
  after0F 0x05 .syscall [] |>.reads [.ip] |>.writes [.reg .rcx, .reg .r11, .ip],
  after0F 0x06 .clts [] |>.group .privilege,
  after0F 0x07 .sysret [] |>.flags allPrior |>.reads [.reg .rcx, .reg .r11] |>.group .privilege,
  after0F 0x08 .invd [] |>.group .privilege,
  after0F 0x09 .wbinvd [] |>.group .privilege,
  after0F 0x0b .ud2 [],
  after0F 0x0d .prefetch [rd .mem .b8] |>.digit 0 |>.memForm,
  after0F 0x0d .prefetchw [rd .mem .b8] |>.digit 1 |>.memForm,
  after0F 0x1e .endbr64 [] |>.pF3 |>.modrm 0xfa,
  after0F 0x1e .endbr32 [] |>.pF3 |>.modrm 0xfb,
  after0F 0x1f .nop [rd .rm .v] |>.digit 0,
  after0F 0x20 .mov [wr .rmAnyForm .native, rd .controlReg .native] |>.group .privilege,
  after0F 0x21 .mov [wr .rmAnyForm .native, rd .debugReg .native] |>.group .privilege,
  after0F 0x22 .mov [wr .controlReg .native, rd .rmAnyForm .native] |>.group .privilege,
  after0F 0x23 .mov [wr .debugReg .native, rd .rmAnyForm .native] |>.group .privilege,
  after0F 0x30 .wrmsr [] |>.reads [.reg .ecx, .reg .eax, .reg .edx] |>.group .privilege,
  after0F 0x31 .rdtsc [] |>.writes [.reg .eax, .reg .edx],
  after0F 0x32 .rdmsr [] |>.reads [.reg .ecx] |>.writes [.reg .eax, .reg .edx] |>.group .privilege,
  after0F 0x33 .rdpmc [] |>.reads [.reg .ecx] |>.writes [.reg .eax, .reg .edx],
  after0F 0x35 .sysexit [] |>.group .privilege,
  after0F 0xa2 .cpuid [] |>.reads [.reg .eax, .reg .ecx]
    |>.writes [.reg .eax, .reg .ebx, .reg .ecx, .reg .edx],
  after0F 0xae .fxsave [wr .mem .unsized] |>.digit 0 |>.memForm |>.w0,
  after0F 0xae .fxsave64 [wr .mem .unsized] |>.digit 0 |>.memForm |>.w1,
  after0F 0xae .fxrstor [rd .mem .unsized] |>.digit 1 |>.memForm |>.w0,
  after0F 0xae .fxrstor64 [rd .mem .unsized] |>.digit 1 |>.memForm |>.w1,
  after0F 0xae .xsave [wr .mem .unsized] |>.digit 4 |>.memForm |>.w0
    |>.reads [.reg .eax, .reg .edx],
  after0F 0xae .xsave64 [wr .mem .unsized] |>.digit 4 |>.memForm |>.w1
    |>.reads [.reg .eax, .reg .edx],
  after0F 0xae .xrstor [rd .mem .unsized] |>.digit 5 |>.memForm |>.w0
    |>.reads [.reg .eax, .reg .edx],
  after0F 0xae .xrstor64 [rd .mem .unsized] |>.digit 5 |>.memForm |>.w1
    |>.reads [.reg .eax, .reg .edx],
  after0F 0xae .xsaveopt [wr .mem .unsized] |>.digit 6 |>.memForm |>.reads [.reg .eax, .reg .edx],
  after0F 0xae .clflush [rd .mem .b8] |>.np |>.digit 7 |>.memForm,
  after0F 0xae .rdfsbase [wr .rmReg .y] |>.pF3 |>.digit 0 |>.regForm |>.only64,
  after0F 0xae .rdgsbase [wr .rmReg .y] |>.pF3 |>.digit 1 |>.regForm |>.only64,
  after0F 0xae .wrfsbase [rd .rmReg .y] |>.pF3 |>.digit 2 |>.regForm |>.only64,
  after0F 0xae .wrgsbase [rd .rmReg .y] |>.pF3 |>.digit 3 |>.regForm |>.only64,
  after0F 0xb9 .ud1 [rd .reg .v, rd .rm .v],
  after0F 0xc7 .vmptrld [rd .mem .b64] |>.np |>.digit 6 |>.memForm |>.flags vmx |>.group .vm,
  after0F 0xc7 .vmclear [rd .mem .b64] |>.p66 |>.digit 6 |>.memForm |>.flags vmx |>.group .vm,
  after0F 0xc7 .vmxon [rd .mem .b64] |>.pF3 |>.digit 6 |>.memForm |>.flags vmx |>.group .vm,
  after0F 0xc7 .vmptrst [wr .mem .b64] |>.np |>.digit 7 |>.memForm |>.flags vmx |>.group .vm,
  after0F 0xc7 .rdrand [wr .rmReg .v] |>.digit 6 |>.regForm |>.flags rdrand,
  after0F 0xc7 .rdseed [wr .rmReg .v] |>.digit 7 |>.regForm |>.flags rdrand,
  after0F 0xff .ud0 [rd .reg .b32, rd .rm .b32]]

end MachineCode.X86.Table
