import MachineCode.Mips.Table.Control
import MachineCode.Mips.Table.Float
import MachineCode.Mips.Table.Integer
import MachineCode.Mips.Table.Memory
import MachineCode.Mips.Table.System

/-!
# The MIPS encoding table

All rows, and an index of them by primary opcode, the top six bits of the word.
Every row fixes those bits. The order of the rows carries no meaning.
-/

namespace MachineCode.Mips

/-- Every row of the encoding table. -/
def table : List Row :=
  open Table in integer ++ control ++ memory ++ float ++ system

/-- The rows of each primary opcode. -/
def tableIndex : Array (List Row) :=
  Array.ofFn (n := 64) fun opcode =>
    table.filter fun r => primaryOpcode r.value == BitVec.ofFin opcode

/-- The rows of the primary opcode of a word. -/
def candidates (w : Word) : List Row :=
  tableIndex.getD (primaryOpcode w).toNat []

end MachineCode.Mips
