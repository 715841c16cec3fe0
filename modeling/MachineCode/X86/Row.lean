import MachineCode.Group
import MachineCode.Operand
import MachineCode.X86.Detail
import MachineCode.X86.Mnemonic

/-!
# Rows of the encoding tables

A row says when it applies, its `Pattern`, and what it means: the name of the
instruction, its operand slots, and its effects. Rows are plain data. They are
written with the constructors and modifiers below, one line a row, in the
manner of an opcode map: `primary 0x01 .add [rw .rm .v, rd .reg .v]` is the row
`01 /r  ADD Ev, Gv`.
-/

namespace MachineCode.X86

/-- Opcode maps. -/
inductive OpcodeMap where
  | primary | map0F | map0F38 | map0F3A | xop8 | xop9 | xopA
deriving DecidableEq

/-- The prefix that takes part in selecting a row. -/
inductive Mandatory where
  | none | p66 | pF3 | pF2
deriving DecidableEq

/-- The forms of a ModRM byte: memory, or register when both top bits are set. -/
inductive ModrmForm where
  | any | memory | register
deriving DecidableEq

/-- Processor modes in which a row exists. -/
inductive ModeScope where
  | any | only64 | not64
deriving DecidableEq

/-- Where an operand comes from. "rm" is the r/m field of the ModRM byte, "reg" its register
field, "vvvv" the extra register field of the vector encodings. -/
inductive Source where
  /-- rm: general register or memory. -/
  | rm
  /-- reg: general register. -/
  | reg
  /-- rm: memory only. -/
  | mem
  /-- rm: general register only. -/
  | rmReg
  /-- rm: general register, whatever the form of the ModRM byte. -/
  | rmAnyForm
  /-- The low three bits of the opcode: general register. -/
  | opcodeReg
  /-- Immediate, zero-extended. -/
  | imm
  /-- Immediate, sign-extended to the operand size. -/
  | signedImm
  /-- Branch displacement; the operand is the target. -/
  | rel
  /-- Absolute memory offset of the address size. -/
  | offset
  | fixed (r : Register)
  /-- The accumulator of the slot's size. -/
  | accumulator
  /-- The constant one. -/
  | one
  /-- reg: segment, control or debug register. -/
  | segmentReg | controlReg | debugReg
  /-- reg: vector register. -/
  | vecReg
  /-- rm: vector register or memory. -/
  | vecRm
  /-- rm: vector register only. -/
  | vecRmReg
  /-- vvvv: vector register. -/
  | vecV
  /-- The top four bits of an immediate byte: vector register. -/
  | vecImm
  /-- reg: `mm` register. -/
  | mmxReg
  /-- rm: `mm` register or memory. -/
  | mmxRm
  /-- rm: `mm` register only. -/
  | mmxRmReg
  /-- reg: opmask register. -/
  | maskReg
  /-- rm: opmask register or memory. -/
  | maskRm
  /-- vvvv: opmask register. -/
  | maskV
  /-- vvvv: general register. -/
  | regV
  /-- The top of the floating-point stack. -/
  | stackTop
  /-- rm: floating-point stack register. -/
  | stackRm
  /-- Selector and offset of a far pointer, two operands. -/
  | farPointer
  /-- Memory at the string source register. -/
  | stringSource
  /-- Memory at the string destination register. -/
  | stringDest
deriving DecidableEq

/-- Sizes of operands. -/
inductive Size where
  | b8 | b16 | b32 | b64 | b80 | b128 | b256 | b512
  /-- The operand size. -/
  | v
  /-- 16 at operand size 16, else 32. -/
  | z
  /-- 64 at operand size 64, else 32. -/
  | y
  /-- 64 in 64-bit mode, else 32. -/
  | native
  /-- The vector length. -/
  | vec
  | vecHalf | vecQuarter | vecEighth
  /-- A selector and an offset of the operand size. -/
  | far
  /-- A descriptor-table image: 10 bytes in 64-bit mode, else 6. -/
  | descriptor
  /-- Memory of which only the address counts. -/
  | unsized
deriving DecidableEq

/-- One operand slot of a row. -/
structure Slot where
  source : Source
  size : Size
  access : Access
deriving DecidableEq

namespace Slot

/-- A slot that is read. -/
def rd (source : Source) (size : Size) : Slot :=
  ⟨source, size, .read⟩

/-- A slot that is written. -/
def wr (source : Source) (size : Size) : Slot :=
  ⟨source, size, .write⟩

/-- A slot that is read and written. -/
def rw (source : Source) (size : Size) : Slot :=
  ⟨source, size, .readWrite⟩

/-- A slot of which only the address is used. -/
def ea (source : Source) (size : Size) : Slot :=
  ⟨source, size, .none⟩

end Slot

/-- A register that an instruction uses without naming it in an operand. -/
inductive Implicit where
  | reg (r : Register)
  /-- `rAX` or `rDX` of the operand size. -/
  | ax | dx
  /-- `rCX`, `rSI` or `rDI` of the address size. -/
  | cx | si | di
  /-- Stack, frame or instruction pointer of the mode. -/
  | sp | bp | ip
deriving DecidableEq

/-- The name of an instruction, which may depend on a size: names for 16, 32 and 64 bits. -/
inductive Naming where
  | always (m : Mnemonic)
  | byOperandSize (m16 m32 m64 : Mnemonic)
  | byAddressSize (m16 m32 m64 : Mnemonic)
deriving DecidableEq

/-- How the operand size comes about in 64-bit mode. -/
inductive SizeRule where
  /-- 32 bits unless widened or narrowed. -/
  | usual
  /-- 64 bits unless narrowed. -/
  | default64
  /-- 64 bits always. -/
  | force64
deriving DecidableEq

/-- The predicate set that a trailing immediate byte selects from. -/
inductive PredicateSet where
  | sse | avx | xop
deriving DecidableEq

/-- What the broadcast bit means with a register operand. -/
inductive RegisterControl where
  /-- It is not allowed. -/
  | none
  /-- Static rounding; exceptions are suppressed too. -/
  | rounding
  /-- Suppression of exceptions. -/
  | suppress
deriving DecidableEq

/-- Element widths of broadcast memory operands. -/
inductive Element where
  | e32 | e64
deriving DecidableEq

/-- Element width in bits. -/
def Element.bits : Element → UInt16
  | e32 => 32
  | e64 => 64

/-- When a row applies. -/
structure Pattern where
  encoding : Encoding
  map : OpcodeMap
  opcode : UInt8
  /-- The low three opcode bits select a register. -/
  plusReg : Bool := false
  mandatory : Option Mandatory := none
  /-- Required register field of the ModRM byte. -/
  reg : Option UInt8 := none
  form : ModrmForm := .any
  /-- Required r/m field of the ModRM byte. -/
  rm : Option UInt8 := none
  /-- Required W bit. -/
  w : Option Bool := none
  /-- Required vector length field. -/
  length : Option UInt8 := none
  scope : ModeScope := .any
  /-- The row needs the B extension bit to be clear. -/
  withoutB : Bool := false
deriving DecidableEq

namespace Pattern

/-- The number of selector bits that a pattern fixes. Of several rows that apply, the one that
fixes most is meant. -/
def specificity (p : Pattern) : Nat :=
  (if p.plusReg then 5 else 8)
    + (if p.mandatory.isSome then 8 else 0)
    + (if p.reg.isSome then 3 else 0)
    + (if p.form ≠ .any then 1 else 0)
    + (if p.rm.isSome then 3 else 0)
    + (if p.w.isSome then 1 else 0)
    + (if p.length.isSome then 2 else 0)
    + (if p.scope ≠ .any then 1 else 0)
    + (if p.withoutB then 1 else 0)

/-- Whether the ModRM byte takes part in selecting the row. -/
def selectsOnModrm (p : Pattern) : Bool :=
  p.reg.isSome || p.rm.isSome || decide (p.form ≠ .any)

/-- Whether the pattern covers an opcode byte. -/
def coversOpcode (p : Pattern) (opcode : UInt8) : Bool :=
  if p.plusReg then opcode &&& 0xf8 == p.opcode &&& 0xf8 else opcode == p.opcode

end Pattern

/-- A row of the encoding tables. -/
structure Row where
  pattern : Pattern
  naming : Naming
  slots : List Slot
  effects : BitVec 64 := 0
  implicitReads : List Implicit := []
  implicitWrites : List Implicit := []
  groups : List Group := []
  sizeRule : SizeRule := .usual
  /-- A string instruction that honours a repeat prefix. -/
  repeats : Bool := false
  predicates : Option PredicateSet := none
  registerControl : RegisterControl := .none
  broadcast : Option Element := none
  /-- Whether the destination may carry a write mask. -/
  maskable : Bool := false
deriving DecidableEq

/-- Whether a source is read from the ModRM byte. -/
def Source.usesModrm : Source → Bool
  | .rm | .reg | .mem | .rmReg | .rmAnyForm | .segmentReg | .controlReg | .debugReg
  | .vecReg | .vecRm | .vecRmReg | .mmxReg | .mmxRm | .mmxRmReg | .maskReg | .maskRm
  | .stackRm => true
  | .opcodeReg | .imm | .signedImm | .rel | .offset | .fixed _ | .accumulator | .one
  | .vecV | .vecImm | .maskV | .regV | .stackTop | .farPointer | .stringSource
  | .stringDest => false

/-- Whether a source is read from the vvvv field. -/
def Source.usesVvvv : Source → Bool
  | .vecV | .maskV | .regV => true
  | _ => false

namespace Row

/-- Whether the row has a ModRM byte. -/
def needsModrm (r : Row) : Bool :=
  r.pattern.selectsOnModrm || r.slots.any fun s => s.source.usesModrm

/-- Whether some operand comes from the vvvv field. -/
def usesVvvv (r : Row) : Bool :=
  r.slots.any fun s => s.source.usesVvvv

/-- Whether some operand comes from this source. -/
def hasSource (r : Row) (source : Source) : Bool :=
  r.slots.any fun s => decide (s.source = source)

/-! ## Writing rows

The tables are written with the functions that follow. A row starts from an opcode of
some map with its name and slots, and each further function changes one field. -/

/-- A row of some encoding and map. -/
def of (encoding : Encoding) (map : OpcodeMap) (opcode : UInt8) (m : Mnemonic)
    (slots : List Slot) : Row :=
  { pattern := { encoding, map, opcode }, naming := .always m, slots }

/-- A row of the one-byte map. -/
def primary : UInt8 → Mnemonic → List Slot → Row :=
  of .legacy .primary

/-- A row of the map after `0F`. -/
def after0F : UInt8 → Mnemonic → List Slot → Row :=
  of .legacy .map0F

/-- A row of the map after `0F 38`. -/
def after0F38 : UInt8 → Mnemonic → List Slot → Row :=
  of .legacy .map0F38

/-- A row of the map after `0F 3A`. -/
def after0F3A : UInt8 → Mnemonic → List Slot → Row :=
  of .legacy .map0F3A

/-- The low three opcode bits select a register. -/
def plusReg (r : Row) : Row :=
  { r with pattern := { r.pattern with plusReg := true } }

/-- Without a mandatory prefix. -/
def np (r : Row) : Row :=
  { r with pattern := { r.pattern with mandatory := some .none } }

/-- With mandatory prefix `66`. -/
def p66 (r : Row) : Row :=
  { r with pattern := { r.pattern with mandatory := some .p66 } }

/-- With mandatory prefix `F3`. -/
def pF3 (r : Row) : Row :=
  { r with pattern := { r.pattern with mandatory := some .pF3 } }

/-- With mandatory prefix `F2`. -/
def pF2 (r : Row) : Row :=
  { r with pattern := { r.pattern with mandatory := some .pF2 } }

/-- With an opcode extension in the register field. -/
def digit (n : UInt8) (r : Row) : Row :=
  { r with pattern := { r.pattern with reg := some n } }

/-- Memory form only. -/
def memForm (r : Row) : Row :=
  { r with pattern := { r.pattern with form := .memory } }

/-- Register form only. -/
def regForm (r : Row) : Row :=
  { r with pattern := { r.pattern with form := .register } }

/-- With a whole ModRM byte of the register form. -/
def modrm (byte : UInt8) (r : Row) : Row :=
  { r with pattern := { r.pattern with
      form := .register, reg := some (byte >>> 3 &&& 7), rm := some (byte &&& 7) } }

/-- With the W bit clear. -/
def w0 (r : Row) : Row :=
  { r with pattern := { r.pattern with w := some false } }

/-- With the W bit set. -/
def w1 (r : Row) : Row :=
  { r with pattern := { r.pattern with w := some true } }

/-- With a vector length field. -/
def len (l : UInt8) (r : Row) : Row :=
  { r with pattern := { r.pattern with length := some l } }

/-- Only in 64-bit mode. -/
def only64 (r : Row) : Row :=
  { r with pattern := { r.pattern with scope := .only64 } }

/-- Only outside 64-bit mode. -/
def not64 (r : Row) : Row :=
  { r with pattern := { r.pattern with scope := .not64 } }

/-- Only with the B extension bit clear. -/
def withoutB (r : Row) : Row :=
  { r with pattern := { r.pattern with withoutB := true } }

/-- With effects on the flags register. -/
def flags (effects : BitVec 64) (r : Row) : Row :=
  { r with effects }

/-- With registers read implicitly. -/
def reads (regs : List Implicit) (r : Row) : Row :=
  { r with implicitReads := regs }

/-- With registers written implicitly. -/
def writes (regs : List Implicit) (r : Row) : Row :=
  { r with implicitWrites := regs }

/-- With registers read and written implicitly. -/
def updates (regs : List Implicit) (r : Row) : Row :=
  { r with implicitReads := regs, implicitWrites := regs }

/-- In one group. -/
def group (g : Group) (r : Row) : Row :=
  { r with groups := [g] }

/-- In several groups. -/
def inGroups (groups : List Group) (r : Row) : Row :=
  { r with groups }

/-- Operand size 64 by default in 64-bit mode. -/
def default64 (r : Row) : Row :=
  { r with sizeRule := .default64 }

/-- Operand size 64 always in 64-bit mode. -/
def force64 (r : Row) : Row :=
  { r with sizeRule := .force64 }

/-- Honours a repeat prefix. -/
def repeatable (r : Row) : Row :=
  { r with repeats := true }

/-- With a predicate in the trailing immediate. -/
def predicate (set : PredicateSet) (r : Row) : Row :=
  { r with predicates := some set }

/-- With static rounding in the register form. -/
def rounding (r : Row) : Row :=
  { r with registerControl := .rounding }

/-- With suppression of exceptions in the register form. -/
def sae (r : Row) : Row :=
  { r with registerControl := .suppress }

/-- With broadcast of 32-bit elements. -/
def bcst32 (r : Row) : Row :=
  { r with broadcast := some .e32 }

/-- With broadcast of 64-bit elements. -/
def bcst64 (r : Row) : Row :=
  { r with broadcast := some .e64 }

/-- Without write masking. -/
def unmasked (r : Row) : Row :=
  { r with maskable := false }

/-- Named by the operand size. -/
def byOperandSize (m16 m32 m64 : Mnemonic) (r : Row) : Row :=
  { r with naming := .byOperandSize m16 m32 m64 }

/-- Named by the address size. -/
def byAddressSize (m16 m32 m64 : Mnemonic) (r : Row) : Row :=
  { r with naming := .byAddressSize m16 m32 m64 }

end Row

end MachineCode.X86
