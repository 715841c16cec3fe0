import MachineCode.Vocabulary

/-!
# Registers of the MIPS family

General registers carry their names from the calling convention. The width of
the general registers, of `hi`, `lo` and the program counter depends on the
mode; the other classes have a fixed width.
-/

namespace MachineCode.Mips

/-- Registers, by class and number. -/
inductive Register where
  | absent
  | general (n : BitVec 5)
  | float (n : BitVec 5)
  /-- Floating-point condition code. -/
  | condition (n : BitVec 3)
  | hi
  | lo
  | accumulator (n : BitVec 2)
  | pc
  | vector (n : BitVec 5)
deriving DecidableEq

namespace Register

/-- Names of the general registers by number. -/
def generalNames : Array String := #[
  "zero", "at", "v0", "v1", "a0", "a1", "a2", "a3", "t0", "t1", "t2", "t3", "t4", "t5", "t6", "t7",
  "s0", "s1", "s2", "s3", "s4", "s5", "s6", "s7", "t8", "t9", "k0", "k1", "gp", "sp", "fp", "ra"]

/-- Display name. -/
def name : Register → String
  | absent => ""
  | general n => generalNames.getD n.toNat ""
  | float n => numbered "f" n.toNat
  | condition n => numbered "fcc" n.toNat
  | hi => "hi"
  | lo => "lo"
  | accumulator n => numbered "ac" n.toNat
  | pc => "pc"
  | vector n => numbered "w" n.toNat

/-- Every register, class by class. -/
def all : List Register :=
  (bitVectors 5).map general
    ++ (bitVectors 5).map float
    ++ (bitVectors 3).map condition
    ++ [hi, lo]
    ++ (bitVectors 2).map accumulator
    ++ [pc]
    ++ (bitVectors 5).map vector

instance : Vocabulary Register where
  absent := absent
  all := all
  name := name
  tag r := if r = absent then "Invalid" else capitalize r.name

/-- The number of a general register. -/
def generalNumber? : Register → Option Nat
  | general n => some n.toNat
  | _ => none

/-- Width in bits, given the width of the general registers. -/
def size (generalBits : UInt16) : Register → UInt16
  | absent => 0
  | general _ | hi | lo | pc => generalBits
  | float _ | accumulator _ => 64
  | condition _ => 1
  | vector _ => 128

/-- The return address register. -/
def ra : Register := general 31

end Register

end MachineCode.Mips
