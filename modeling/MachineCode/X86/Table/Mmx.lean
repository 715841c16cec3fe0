import MachineCode.X86.Table.Shape

/-!
# Packed integers

Instructions on `mm` registers, and their forms on 128-bit registers under
mandatory prefix `66`.
-/

namespace MachineCode.X86.Table

open Row Slot FlagEffects

/-- Packed integer instructions that exist on 64-bit registers without a prefix and on 128-bit
registers with prefix `66`. -/
def onBothWidths (row : UInt8 → Mnemonic → List Slot → Row) (wide : Group)
    (entries : List (UInt8 × Mnemonic)) : List Row :=
  entries.flatMap fun (opcode, m) => [
    row opcode m mmxUpdate |>.np |>.group .mmx,
    row opcode m xmmUpdate |>.p66 |>.group wide]

/-- Packed integer arithmetic. -/
def packedInteger : List Row := onBothWidths after0F .sse2 [
  (0x60, .punpcklbw), (0x61, .punpcklwd), (0x62, .punpckldq), (0x63, .packsswb), (0x64, .pcmpgtb),
  (0x65, .pcmpgtw), (0x66, .pcmpgtd), (0x67, .packuswb), (0x68, .punpckhbw), (0x69, .punpckhwd),
  (0x6a, .punpckhdq), (0x6b, .packssdw), (0x74, .pcmpeqb), (0x75, .pcmpeqw), (0x76, .pcmpeqd),
  (0xd1, .psrlw), (0xd2, .psrld), (0xd3, .psrlq), (0xd4, .paddq), (0xd5, .pmullw),
  (0xd8, .psubusb), (0xd9, .psubusw), (0xda, .pminub), (0xdb, .pand), (0xdc, .paddusb),
  (0xdd, .paddusw), (0xde, .pmaxub), (0xdf, .pandn), (0xe0, .pavgb), (0xe1, .psraw),
  (0xe2, .psrad), (0xe3, .pavgw), (0xe4, .pmulhuw), (0xe5, .pmulhw), (0xe8, .psubsb),
  (0xe9, .psubsw), (0xea, .pminsw), (0xeb, .por), (0xec, .paddsb), (0xed, .paddsw),
  (0xee, .pmaxsw), (0xef, .pxor), (0xf1, .psllw), (0xf2, .pslld), (0xf3, .psllq),
  (0xf4, .pmuludq), (0xf5, .pmaddwd), (0xf6, .psadbw), (0xf8, .psubb), (0xf9, .psubw),
  (0xfa, .psubd), (0xfb, .psubq), (0xfc, .paddb), (0xfd, .paddw), (0xfe, .paddd)]

/-- Packed integer arithmetic with horizontal and sign operations. -/
def packedIntegerMore : List Row := onBothWidths after0F38 .ssse3 [
  (0x00, .pshufb), (0x01, .phaddw), (0x02, .phaddd), (0x03, .phaddsw), (0x04, .pmaddubsw),
  (0x05, .phsubw), (0x06, .phsubd), (0x07, .phsubsw), (0x08, .psignb), (0x09, .psignw),
  (0x0a, .psignd), (0x0b, .pmulhrsw), (0x1c, .pabsb), (0x1d, .pabsw), (0x1e, .pabsd)]

/-- Moves and shifts on 64-bit registers. -/
def mmxMoves : List Row := [
  after0F 0x6e .movd [wr .mmxReg .b64, rd .rm .b32] |>.np |>.w0 |>.group .mmx,
  after0F 0x6e .movq [wr .mmxReg .b64, rd .rm .b64] |>.np |>.w1 |>.group .mmx,
  after0F 0x6f .movq [wr .mmxReg .b64, rd .mmxRm .b64] |>.np |>.group .mmx,
  after0F 0x71 .psrlw [rw .mmxRmReg .b64, rd .imm .b8] |>.np |>.digit 2 |>.regForm |>.group .mmx,
  after0F 0x71 .psraw [rw .mmxRmReg .b64, rd .imm .b8] |>.np |>.digit 4 |>.regForm |>.group .mmx,
  after0F 0x71 .psllw [rw .mmxRmReg .b64, rd .imm .b8] |>.np |>.digit 6 |>.regForm |>.group .mmx,
  after0F 0x72 .psrld [rw .mmxRmReg .b64, rd .imm .b8] |>.np |>.digit 2 |>.regForm |>.group .mmx,
  after0F 0x72 .psrad [rw .mmxRmReg .b64, rd .imm .b8] |>.np |>.digit 4 |>.regForm |>.group .mmx,
  after0F 0x72 .pslld [rw .mmxRmReg .b64, rd .imm .b8] |>.np |>.digit 6 |>.regForm |>.group .mmx,
  after0F 0x73 .psrlq [rw .mmxRmReg .b64, rd .imm .b8] |>.np |>.digit 2 |>.regForm |>.group .mmx,
  after0F 0x73 .psllq [rw .mmxRmReg .b64, rd .imm .b8] |>.np |>.digit 6 |>.regForm |>.group .mmx,
  after0F 0x77 .emms [] |>.np |>.group .mmx,
  after0F 0x7e .movd [wr .rm .b32, rd .mmxReg .b64] |>.np |>.w0 |>.group .mmx,
  after0F 0x7e .movq [wr .rm .b64, rd .mmxReg .b64] |>.np |>.w1 |>.group .mmx,
  after0F 0x7f .movq [wr .mmxRm .b64, rd .mmxReg .b64] |>.np |>.group .mmx]

/-- Packed integers. -/
def mmx : List Row :=
  mmxMoves ++ packedInteger ++ packedIntegerMore

end MachineCode.X86.Table
