import MachineCode.X86.FlagEffects
import MachineCode.X86.Predicate
import MachineCode.X86.Register

/-!
# Encoding detail of an x86 instruction

What a decode can tell about the encoding beyond mnemonic and operands.
-/

namespace MachineCode.X86

/-- Encoding schemes. -/
inductive Encoding where
  | legacy | vex | evex | xop
deriving DecidableEq

/-- Display name. -/
def Encoding.name : Encoding → String
  | legacy => "legacy"
  | vex => "vex"
  | evex => "evex"
  | xop => "xop"

/-- Encoding detail. Bytes that are not part of the instruction are zero. -/
structure Detail where
  /-- Last prefix byte of each class: repeat or lock, segment, operand size, address size. -/
  prefixes : Vector UInt8 4 := #v[0, 0, 0, 0]
  /-- Opcode bytes with their escapes. -/
  opcode : Vector UInt8 4 := #v[0, 0, 0, 0]
  rex : UInt8 := 0
  /-- Effective address size in bytes. -/
  addressSize : UInt8 := 0
  modrm : UInt8 := 0
  sib : UInt8 := 0
  disp : Int64 := 0
  sibIndex : Register := .absent
  /-- Zero when there is no SIB byte. -/
  sibScale : Int8 := 0
  sibBase : Register := .absent
  encoding : Encoding := .legacy
  sseCondition : SseCondition := .absent
  avxCondition : AvxCondition := .absent
  xopCondition : XopCondition := .absent
  suppressExceptions : Bool := false
  rounding : RoundingMode := .absent
  effects : FlagEffects := {}
  /-- The write mask `k1` to `k7`. -/
  opmask : Register := .absent
deriving DecidableEq

/-- The prefix bytes that are present, class by class. -/
def Detail.presentPrefixes (d : Detail) : List UInt8 :=
  d.prefixes.toList.filter (· != 0)

end MachineCode.X86
