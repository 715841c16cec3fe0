import MachineCode.X86.Table.Shape

/-!
# String instructions

Operands are memory at the string registers of the address size. The name
depends on the operand size, and a repeat prefix counts in `rCX`.
-/

namespace MachineCode.X86.Table

open Row Slot FlagEffects

/-- String instructions, which a repeat prefix may iterate. -/
def strings : List Row := [
  primary 0x6c .insb [wr .stringDest .b8, rd (.fixed .dx) .b16] |>.flags stringStep
    |>.updates [.di] |>.repeatable,
  primary 0x6d .insd [wr .stringDest .z, rd (.fixed .dx) .b16] |>.flags stringStep
    |>.updates [.di] |>.repeatable |>.byOperandSize .insw .insd .insd,
  primary 0x6e .outsb [rd (.fixed .dx) .b16, rd .stringSource .b8] |>.flags stringStep
    |>.updates [.si] |>.repeatable,
  primary 0x6f .outsd [rd (.fixed .dx) .b16, rd .stringSource .z] |>.flags stringStep
    |>.updates [.si] |>.repeatable |>.byOperandSize .outsw .outsd .outsd,
  primary 0xa4 .movsb [wr .stringDest .b8, rd .stringSource .b8] |>.flags stringStep
    |>.updates [.si, .di] |>.repeatable,
  primary 0xa5 .movsd [wr .stringDest .v, rd .stringSource .v] |>.flags stringStep
    |>.updates [.si, .di] |>.repeatable |>.byOperandSize .movsw .movsd .movsq,
  primary 0xa6 .cmpsb [rd .stringSource .b8, rd .stringDest .b8] |>.flags stringCmp
    |>.updates [.si, .di] |>.repeatable,
  primary 0xa7 .cmpsd [rd .stringSource .v, rd .stringDest .v] |>.flags stringCmp
    |>.updates [.si, .di] |>.repeatable |>.byOperandSize .cmpsw .cmpsd .cmpsq,
  primary 0xaa .stosb [wr .stringDest .b8, rd .accumulator .b8] |>.flags stringStep
    |>.updates [.di] |>.repeatable,
  primary 0xab .stosd [wr .stringDest .v, rd .accumulator .v] |>.flags stringStep |>.updates [.di]
    |>.repeatable |>.byOperandSize .stosw .stosd .stosq,
  primary 0xac .lodsb [wr .accumulator .b8, rd .stringSource .b8] |>.flags stringStep
    |>.updates [.si] |>.repeatable,
  primary 0xad .lodsd [wr .accumulator .v, rd .stringSource .v] |>.flags stringStep
    |>.updates [.si] |>.repeatable |>.byOperandSize .lodsw .lodsd .lodsq,
  primary 0xae .scasb [rd .accumulator .b8, rd .stringDest .b8] |>.flags stringCmp
    |>.updates [.di] |>.repeatable,
  primary 0xaf .scasd [rd .accumulator .v, rd .stringDest .v] |>.flags stringCmp |>.updates [.di]
    |>.repeatable |>.byOperandSize .scasw .scasd .scasq]

end MachineCode.X86.Table
