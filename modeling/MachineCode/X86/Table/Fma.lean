import MachineCode.X86.Table.Shape

/-!
# Fused multiply-add

The high digit of the opcode orders the operands and the low digit names the
operation. The four-operand forms name the destination apart.
-/

namespace MachineCode.X86.Table

open Row Slot FlagEffects

/-- Two rows an opcode: 32-bit elements with W clear, 64-bit elements with W set. -/
def fusedRows (shape32 shape64 : List Slot) (entries : List (UInt8 × Mnemonic × Mnemonic)) :
    List Row :=
  entries.flatMap fun (opcode, m32, m64) => [
    vex38 opcode m32 shape32 |>.w0 |>.group .fma,
    vex38 opcode m64 shape64 |>.w1 |>.group .fma]

/-- Packed fused multiply-add. -/
def fmaPacked : List Row := fusedRows fused fused [
  (0x96, .vfmaddsub132ps, .vfmaddsub132pd), (0x97, .vfmsubadd132ps, .vfmsubadd132pd),
  (0x98, .vfmadd132ps, .vfmadd132pd), (0x9a, .vfmsub132ps, .vfmsub132pd),
  (0x9c, .vfnmadd132ps, .vfnmadd132pd), (0x9e, .vfnmsub132ps, .vfnmsub132pd),
  (0xa6, .vfmaddsub213ps, .vfmaddsub213pd), (0xa7, .vfmsubadd213ps, .vfmsubadd213pd),
  (0xa8, .vfmadd213ps, .vfmadd213pd), (0xaa, .vfmsub213ps, .vfmsub213pd),
  (0xac, .vfnmadd213ps, .vfnmadd213pd), (0xae, .vfnmsub213ps, .vfnmsub213pd),
  (0xb6, .vfmaddsub231ps, .vfmaddsub231pd), (0xb7, .vfmsubadd231ps, .vfmsubadd231pd),
  (0xb8, .vfmadd231ps, .vfmadd231pd), (0xba, .vfmsub231ps, .vfmsub231pd),
  (0xbc, .vfnmadd231ps, .vfnmadd231pd), (0xbe, .vfnmsub231ps, .vfnmsub231pd)]

/-- Scalar fused multiply-add. -/
def fmaScalar : List Row := fusedRows fused32 fused64 [
  (0x99, .vfmadd132ss, .vfmadd132sd), (0x9b, .vfmsub132ss, .vfmsub132sd),
  (0x9d, .vfnmadd132ss, .vfnmadd132sd), (0x9f, .vfnmsub132ss, .vfnmsub132sd),
  (0xa9, .vfmadd213ss, .vfmadd213sd), (0xab, .vfmsub213ss, .vfmsub213sd),
  (0xad, .vfnmadd213ss, .vfnmadd213sd), (0xaf, .vfnmsub213ss, .vfnmsub213sd),
  (0xb9, .vfmadd231ss, .vfmadd231sd), (0xbb, .vfmsub231ss, .vfmsub231sd),
  (0xbd, .vfnmadd231ss, .vfnmadd231sd), (0xbf, .vfnmsub231ss, .vfnmsub231sd)]

/-- The four-operand forms. -/
def fma4 : List Row := [
  vex3A 0x68 .vfmaddps [wr .vecReg .vec, rd .vecV .vec, rd .vecRm .vec, rd .vecImm .vec] |>.w0
    |>.group .fma4,
  vex3A 0x69 .vfmaddpd [wr .vecReg .vec, rd .vecV .vec, rd .vecRm .vec, rd .vecImm .vec] |>.w0
    |>.group .fma4,
  vex3A 0x6a .vfmaddss [wr .vecReg .b128, rd .vecV .b128, rd .vecRm .b32, rd .vecImm .b128] |>.w0
    |>.group .fma4,
  vex3A 0x6b .vfmaddsd [wr .vecReg .b128, rd .vecV .b128, rd .vecRm .b64, rd .vecImm .b128] |>.w0
    |>.group .fma4,
  vex3A 0x68 .vfmaddps [wr .vecReg .vec, rd .vecV .vec, rd .vecImm .vec, rd .vecRm .vec] |>.w1
    |>.group .fma4,
  vex3A 0x69 .vfmaddpd [wr .vecReg .vec, rd .vecV .vec, rd .vecImm .vec, rd .vecRm .vec] |>.w1
    |>.group .fma4,
  vex3A 0x6a .vfmaddss [wr .vecReg .b128, rd .vecV .b128, rd .vecImm .b128, rd .vecRm .b32] |>.w1
    |>.group .fma4,
  vex3A 0x6b .vfmaddsd [wr .vecReg .b128, rd .vecV .b128, rd .vecImm .b128, rd .vecRm .b64] |>.w1
    |>.group .fma4]

/-- Fused multiply-add. -/
def fma : List Row :=
  fmaPacked ++ fmaScalar ++ fma4

end MachineCode.X86.Table
