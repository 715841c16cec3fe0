import MachineCode.Group
import MachineCode.Mips.Mnemonic
import MachineCode.Operand

/-!
# Rows of the MIPS encoding table

A row fixes some bits of the instruction word, and may relate the two register
fields `rs` and `rt` to each other. Several rows can match one word, as aliases
such as `move` do; the row that fixes most bits is meant. Release 6 gave many
encodings a new meaning, so a row also says to which generations it belongs.
-/

namespace MachineCode.Mips

/-- An instruction word. -/
abbrev Word := BitVec 32

/-- The `width` bits of a word that begin at bit `start`. -/
def field (start width : Nat) (w : Word) : BitVec width :=
  w.extractLsb' start width

def primaryOpcode (w : Word) : BitVec 6 := field 26 6 w
def rs (w : Word) : BitVec 5 := field 21 5 w
def rt (w : Word) : BitVec 5 := field 16 5 w
def rd (w : Word) : BitVec 5 := field 11 5 w
def sa (w : Word) : BitVec 5 := field 6 5 w

/-- Generations of the instruction set. -/
inductive Generation where
  /-- All of them. -/
  | any
  /-- Before release 6, which removed or reassigned the encoding. -/
  | beforeR6
  /-- Release 6 and later. -/
  | r6
deriving DecidableEq

/-- Where an operand comes from. -/
inductive Source where
  | rs | rt | rd
  /-- Floating-point registers in the `rd`, `rt` and `sa` fields. -/
  | fs | ft | fd
  /-- Shift amount. -/
  | shift
  /-- Shift amount stored minus one, in two bits. -/
  | shiftMinus1
  /-- 16-bit immediates. -/
  | signedImm | unsignedImm
  /-- Base register and 16-bit offset; access width in bits. -/
  | mem (bits : UInt16)
  /-- Base register and 9-bit offset; access width in bits. -/
  | mem9 (bits : UInt16)
  /-- Branch targets relative to the next instruction. -/
  | branch16 | branch21 | branch26
  /-- Jump target in the current 256 MB region. -/
  | jump26
  /-- Address relative to this instruction. -/
  | pc19
  /-- Coprocessor or hardware register number in the `rd` field. -/
  | rawRd
  /-- Coprocessor register select. -/
  | select
  /-- Floating-point condition codes of branches and of compares. -/
  | branchCondition | compareCondition
  /-- Bit-field position. -/
  | bitPosition
  /-- Bit-field size, stored minus one. -/
  | extractSize
  /-- Bit-field size, stored as the position of the last bit. -/
  | insertSize
  /-- Cache or prefetch operation in the `rt` field. -/
  | hint
  /-- Trap code. -/
  | code
deriving DecidableEq

/-- Relations between the register fields that a row may require. -/
inductive Relation where
  | always
  | rsBelowRt
  | rsFromRt
  /-- Equal and not zero. -/
  | rsEqualRt
  /-- Different, and `rt` not zero. -/
  | rsUnlikeRt
deriving DecidableEq

/-- Whether a word satisfies a relation. -/
def Relation.holds (c : Relation) (w : Word) : Bool :=
  match c with
  | always => true
  | rsBelowRt => rs w < rt w
  | rsFromRt => rt w ≤ rs w
  | rsEqualRt => rs w == rt w && rt w != 0
  | rsUnlikeRt => rs w != rt w && rt w != 0

/-- One operand slot of a row. -/
structure Slot where
  source : Source
  access : Access
deriving DecidableEq

namespace Slot

/-- A slot that is read. -/
def use (source : Source) : Slot :=
  ⟨source, .read⟩

/-- A slot that is written. -/
def set (source : Source) : Slot :=
  ⟨source, .write⟩

/-- A slot that is read and written. -/
def update (source : Source) : Slot :=
  ⟨source, .readWrite⟩

/-- A slot that is part of the instruction and neither read nor written. -/
def note (source : Source) : Slot :=
  ⟨source, .none⟩

end Slot

/-- A row of the encoding table. -/
structure Row where
  mask : Word
  value : Word
  mnemonic : Mnemonic
  slots : List Slot
  generation : Generation := .any
  relation : Relation := .always
  /-- Needs 64-bit general registers. -/
  wide : Bool := false
  /-- Introduced in release 2. -/
  release2 : Bool := false
  /-- The next instruction runs before the transfer takes effect. -/
  delaySlot : Bool := false
  groups : List Group := []
  implicitReads : List Register := []
  implicitWrites : List Register := []
deriving DecidableEq

namespace Row

/-- Whether a word has the fixed bits of the row and satisfies its relation. -/
def appliesTo (r : Row) (w : Word) : Bool :=
  w &&& r.mask == r.value && r.relation.holds w

/-- The number of fixed bits. -/
def specificity (r : Row) : Nat :=
  (List.range 32).countP r.mask.getLsbD

/-! ## Writing rows

The table is written with the functions that follow. A row starts from an opcode with
its name and slots, and each further function adds one condition or one fact. -/

/-- A row by its mask and value. -/
def of (mask value : Word) (m : Mnemonic) (slots : List Slot) : Row :=
  { mask, value, mnemonic := m, slots }

/-- A row of the primary opcode. -/
def primary (opcode : Word) : Mnemonic → List Slot → Row :=
  of 0xfc000000 (opcode <<< 26)

/-- A row of primary opcode `SPECIAL`, by function. -/
def special (function : Word) : Mnemonic → List Slot → Row :=
  of 0xfc00003f function

/-- A row of primary opcode `REGIMM`, by its `rt` field. -/
def regimm (rt : Word) : Mnemonic → List Slot → Row :=
  of 0xfc1f0000 (1 <<< 26 ||| rt <<< 16)

/-- A row of primary opcode `SPECIAL2`, by function. -/
def special2 (function : Word) : Mnemonic → List Slot → Row :=
  of 0xfc00003f (0x1c <<< 26 ||| function)

/-- A row of primary opcode `SPECIAL3`, by function. -/
def special3 (function : Word) : Mnemonic → List Slot → Row :=
  of 0xfc00003f (0x1f <<< 26 ||| function)

/-- A floating-point register move, by its `rs` field. -/
def floatMove (rs : Word) : Mnemonic → List Slot → Row :=
  of 0xffe007ff (0x11 <<< 26 ||| rs <<< 21)

/-- A floating-point operation, by format and function. -/
def floatOp (format function : Word) : Mnemonic → List Slot → Row :=
  of 0xffe0003f (0x11 <<< 26 ||| format <<< 21 ||| function)

/-- Fixes more bits. -/
def fix (mask value : Word) (r : Row) : Row :=
  { r with mask := r.mask ||| mask, value := r.value ||| value }

/-- Requires a relation between the register fields. -/
def when (relation : Relation) (r : Row) : Row :=
  { r with relation }

/-- Before release 6 only. -/
def beforeR6 (r : Row) : Row :=
  { r with generation := .beforeR6 }

/-- Release 6 only. -/
def r6 (r : Row) : Row :=
  { r with generation := .r6 }

/-- With 64-bit general registers only. -/
def only64 (r : Row) : Row :=
  { r with wide := true }

/-- Introduced in release 2. -/
def rel2 (r : Row) : Row :=
  { r with release2 := true }

/-- With a delay slot. -/
def delay (r : Row) : Row :=
  { r with delaySlot := true }

/-- In some groups. -/
def inGroups (groups : List Group) (r : Row) : Row :=
  { r with groups }

/-- With registers read implicitly. -/
def reads (regs : List Register) (r : Row) : Row :=
  { r with implicitReads := regs }

/-- With registers written implicitly. -/
def writes (regs : List Register) (r : Row) : Row :=
  { r with implicitWrites := regs }

end Row

end MachineCode.Mips
