import MachineCode.Mips.Variant

/-!
# Operands of MIPS instructions

Every operand is a function of the instruction word, except that branch and jump
targets also depend on the address. Branches count words from the next
instruction, jumps name a place in the 256 MB region of the next instruction,
and address computations count words from the instruction itself.
-/

namespace MachineCode.Mips

/-- A field as a signed number. -/
def signedField {n : Nat} (b : BitVec n) : Int64 :=
  Int64.ofInt b.toInt

/-- A field as an unsigned number. -/
def unsignedField {n : Nat} (b : BitVec n) : Int64 :=
  Int64.ofNat b.toNat

/-- The address that lies a signed number of words from another. -/
def wordsFrom {n : Nat} (address : UInt64) (offset : BitVec n) : UInt64 :=
  address + (signedField offset * 4).toUInt64

/-- The address with a number of words in the 256 MB region of another. -/
def inRegion (address : UInt64) (index : BitVec 26) : UInt64 :=
  (address &&& ~~~0x0fffffff) ||| UInt64.ofNat (index.toNat * 4)

/-- An immediate operand of a small field. -/
def smallImmediate (value : Int64) : Operand :=
  .ofImmediate value 8

namespace Variant

/-- A register operand of the register's own size. -/
def registerOperand (v : Variant) (r : Register) (access : Access) : Operand :=
  .ofRegister (.ofMips r) (r.size v.generalBits) access

/-- An operand that is an address in the program. -/
def targetOperand (v : Variant) (address : UInt64) : Operand :=
  .ofImmediate (v.wrap address).toInt64 v.generalBits

/-- A memory operand based on the `rs` field. -/
def memoryOperand (w : Word) (disp : Int64) (size : UInt16) (access : Access) : Operand :=
  .ofMemory { base := .ofMips (.general (rs w)), disp } size access

/-- The operand that a slot takes from a word at an address. A bit field that would end before it
begins is no operand. -/
def operand? (v : Variant) (address : UInt64) (w : Word) (slot : Slot) : Option Operand :=
  let next := address + 4
  let access := slot.access
  match slot.source with
  | .rs => some (v.registerOperand (.general (rs w)) access)
  | .rt => some (v.registerOperand (.general (rt w)) access)
  | .rd => some (v.registerOperand (.general (rd w)) access)
  | .fs => some (v.registerOperand (.float (rd w)) access)
  | .ft => some (v.registerOperand (.float (rt w)) access)
  | .fd => some (v.registerOperand (.float (sa w)) access)
  | .shift | .bitPosition => some (smallImmediate (unsignedField (sa w)))
  | .shiftMinus1 => some (smallImmediate (unsignedField (field 6 2 w) + 1))
  | .signedImm => some (.ofImmediate (signedField (field 0 16 w)) 16)
  | .unsignedImm => some (.ofImmediate (unsignedField (field 0 16 w)) 16)
  | .mem bits => some (memoryOperand w (signedField (field 0 16 w)) bits access)
  | .mem9 bits => some (memoryOperand w (signedField (field 7 9 w)) bits access)
  | .branch16 => some (v.targetOperand (wordsFrom next (field 0 16 w)))
  | .branch21 => some (v.targetOperand (wordsFrom next (field 0 21 w)))
  | .branch26 => some (v.targetOperand (wordsFrom next (field 0 26 w)))
  | .jump26 => some (v.targetOperand (inRegion next (field 0 26 w)))
  | .pc19 => some (v.targetOperand (wordsFrom address (field 0 19 w)))
  | .rawRd => some (smallImmediate (unsignedField (rd w)))
  | .select => some (smallImmediate (unsignedField (field 0 3 w)))
  | .branchCondition => some (v.registerOperand (.condition (field 18 3 w)) access)
  | .compareCondition => some (v.registerOperand (.condition (field 8 3 w)) access)
  | .extractSize => some (smallImmediate (unsignedField (rd w) + 1))
  | .insertSize =>
    if rd w < sa w then none
    else some (smallImmediate (unsignedField (rd w) - unsignedField (sa w) + 1))
  | .hint => some (smallImmediate (unsignedField (rt w)))
  | .code => some (.ofImmediate (unsignedField (field 6 10 w)) 16)

/-- The operands of a row. -/
def operands? (v : Variant) (address : UInt64) (w : Word) (row : Row) : Option (List Operand) :=
  row.slots.mapM (v.operand? address w)

end Variant

end MachineCode.Mips
