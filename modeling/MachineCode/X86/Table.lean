import MachineCode.X86.Table.Arithmetic
import MachineCode.X86.Table.Avx
import MachineCode.X86.Table.Avx512
import MachineCode.X86.Table.Bits
import MachineCode.X86.Table.Control
import MachineCode.X86.Table.Fma
import MachineCode.X86.Table.Mmx
import MachineCode.X86.Table.Opmask
import MachineCode.X86.Table.Sse
import MachineCode.X86.Table.Strings
import MachineCode.X86.Table.System
import MachineCode.X86.Table.Transfer
import MachineCode.X86.Table.X87
import MachineCode.X86.Table.Xop

/-!
# The encoding table

All rows, and an index of them by encoding, map and opcode byte. The order of
the rows carries no meaning.
-/

namespace MachineCode.X86

/-- Every row of the encoding table. -/
def table : List Row :=
  open Table in
  arithmetic ++ bits ++ transfer ++ control ++ strings ++ system ++ x87 ++ mmx ++ sse ++ avx
  ++ fma ++ opmask ++ avx512 ++ xop

/-- The place of an encoding and a map in the index. -/
def shelf (encoding : Encoding) (map : OpcodeMap) : Nat :=
  encoding.ctorIdx * 7 + map.ctorIdx

/-- The rows of an encoding and a map. -/
def shelfRows (place : Nat) : List Row :=
  table.filter fun r => shelf r.pattern.encoding r.pattern.map == place

/-- The rows that cover each opcode byte, shelf by shelf. -/
def tableIndex : Array (Array (List Row)) :=
  Array.ofFn (n := 28) fun place =>
    let rows := shelfRows place.val
    Array.ofFn (n := 256) fun opcode =>
      rows.filter fun r => r.pattern.coversOpcode (UInt8.ofNat opcode.val)

/-- The rows that cover an encoding, a map and an opcode byte. -/
def candidates (encoding : Encoding) (map : OpcodeMap) (opcode : UInt8) : List Row :=
  (tableIndex.getD (shelf encoding map) #[]).getD opcode.toNat []

end MachineCode.X86
