import MachineCode.Mips.Table
import MachineCode.Mode
import MachineCode.Specificity

/-!
# Variants of the MIPS instruction set

A mode fixes three things: the width of the general registers, whether the
release 6 encodings are in force, and the byte order. Of the rows that apply to
a word and belong to the variant, the one that fixes most bits is meant.
-/

namespace MachineCode.Mips

/-- A variant of the instruction set. -/
structure Variant where
  /-- Whether general registers have 64 bits. -/
  wide : Bool
  release6 : Bool
  bigEndian : Bool
deriving DecidableEq

namespace Variant

/-- The variant that a mode selects. -/
def ofMode (m : Mode) : Variant :=
  { wide := m.width.isLong
    release6 := m.has Mode.release6
    bigEndian := m.isBigEndian }

/-- The width of the general registers. -/
def generalBits (v : Variant) : UInt16 :=
  if v.wide then 64 else 32

/-- Whether a row belongs to the variant. -/
def accepts (v : Variant) (r : Row) : Bool :=
  (match r.generation with
    | .any => true
    | .beforeR6 => !v.release6
    | .r6 => v.release6)
    && (!r.wide || v.wide)

/-- An address, cut to the width of the general registers. -/
def wrap (v : Variant) (address : UInt64) : UInt64 :=
  if v.wide then address else address &&& 0xffffffff

end Variant

/-- The row that a word means. -/
def Variant.row? (v : Variant) (w : Word) : Option Row :=
  mostSpecific Row.specificity ((candidates w).filter fun r => r.appliesTo w && v.accepts r)

end MachineCode.Mips
