import MachineCode.Specificity
import MachineCode.X86.Head
import MachineCode.X86.Table

/-!
# The frame of an instruction

The frame is what is known once the row is chosen and before operands are read:
the head, the opcode, the row, the ModRM byte, and the sizes they imply.

Of the rows that accept the head and the next byte, the most specific one is
chosen. If the input ends where a ModRM byte could follow, a row without one may
still be chosen. Otherwise the kind of the shortage depends on what the missing
byte was for: a row that has matched and lacks only its operands makes it a
truncated operand, a row that the byte would have selected makes it an underrun.
-/

namespace MachineCode.X86

open Bytes (Read)

/-- An opcode: its map, its last byte, and all its bytes with the escapes. -/
structure Opcode where
  map : OpcodeMap
  byte : UInt8
  bytes : List UInt8
deriving DecidableEq

/-- Reads the opcode. In the legacy encoding the bytes `0F`, `0F 38` and `0F 3A` lead to other
maps; in the vector encodings the payload has named the map. -/
def readOpcode (h : Head) : Read Opcode := do
  let b ← Read.byte
  if h.encoding ≠ .legacy then return { map := h.map, byte := b, bytes := [b] }
  else if b ≠ 0x0f then return { map := .primary, byte := b, bytes := [b] }
  else
    let c ← Read.byte
    if c = 0x38 then
      let d ← Read.byte
      return { map := .map0F38, byte := d, bytes := [b, c, d] }
    else if c = 0x3a then
      let d ← Read.byte
      return { map := .map0F3A, byte := d, bytes := [b, c, d] }
    else return { map := .map0F, byte := c, bytes := [b, c] }

namespace Pattern

/-- Whether a ModRM byte has the fields that the pattern requires. -/
def acceptsModrm (p : Pattern) (m : UInt8) : Bool :=
  p.reg.all (· == m >>> 3 &&& 7)
    && p.rm.all (· == m &&& 7)
    && match p.form with
      | .any => true
      | .memory => m >>> 6 != 3
      | .register => m >>> 6 == 3

/-- Whether the pattern accepts a head, apart from the ModRM byte. -/
def acceptsHead (p : Pattern) (h : Head) : Bool :=
  p.mandatory.all (· == h.mandatory)
    && p.w.all (· == h.w)
    && p.length.all (· == h.fields.length)
    && (match p.scope with
      | .any => true
      | .only64 => h.mode.isLong
      | .not64 => !h.mode.isLong)
    && !(p.withoutB && h.bExt != 0)

/-- Whether the pattern accepts a head and the byte after the opcode, if there is one. -/
def accepts (p : Pattern) (h : Head) (next : Option UInt8) : Bool :=
  p.acceptsHead h && (!p.selectsOnModrm || next.any p.acceptsModrm)

end Pattern

/-- Chooses among rows by the head and the byte after the opcode. -/
def chooseRow (rows : List Row) (h : Head) (next : Option UInt8) : Except Fault Row :=
  let accepted := rows.filter fun r =>
    (next.isSome || !r.needsModrm) && r.pattern.accepts h next
  match mostSpecific (fun r => r.pattern.specificity) accepted with
  | some r => .ok r
  | none =>
    if next.isSome then .error .unknownOpcode
    else if rows.any fun r =>
        r.needsModrm && !r.pattern.selectsOnModrm && r.pattern.accepts h none then
      .error (.truncatedOperand 1 0)
    else if rows.any fun r => r.pattern.selectsOnModrm then .error (.underrun 1 0)
    else .error .unknownOpcode

/-- Vector lengths. -/
inductive VectorLength where
  | v128 | v256 | v512
deriving DecidableEq

/-- Vector length in bits. -/
def VectorLength.bits : VectorLength → UInt16
  | v128 => 128
  | v256 => 256
  | v512 => 512

/-- What the broadcast bit of a register form asks for. -/
inductive EmbeddedControl where
  | none
  | rounding (mode : RoundingMode)
  | suppress
deriving DecidableEq

/-- What is known of an instruction before its operands are read. -/
structure Frame where
  head : Head
  opcode : Opcode
  row : Row
  modrm : Option UInt8
  operandSize : Width
  addressSize : Width
  vectorLength : VectorLength
  control : EmbeddedControl
deriving DecidableEq

/-- Whether the ModRM byte has the register form. -/
def isRegisterForm (modrm : Option UInt8) : Bool :=
  modrm.any fun (m : UInt8) => m >>> 6 == 3

/-- Whether a row allows the payload fields: a vvvv field that no operand uses must be empty, and
masks and the broadcast bit need a row that provides for them. -/
def allowsFields (h : Head) (row : Row) (modrm : Option UInt8) : Bool :=
  if h.encoding = .legacy then true
  else
    (row.usesVvvv || (h.fields.vvvv == 0 && !h.fields.v2))
      && (if h.encoding = .evex then
          (row.maskable || (h.fields.aaa == 0 && !h.fields.zeroing))
            && (!h.fields.broadcast
              || (if isRegisterForm modrm then decide (row.registerControl ≠ .none)
                else row.broadcast.isSome))
        else true)

/-- Whether prefix `66` selects the operand size, rather than the row. -/
def sizeOverride (h : Head) (row : Row) : Bool :=
  h.prefixes.operandSize && decide (row.pattern.mandatory ≠ some .p66)

/-- The repeat prefix, unless it selected the row. -/
def repeatPrefix (h : Head) (row : Row) : Option UInt8 :=
  if row.pattern.mandatory = some .pF2 ∨ row.pattern.mandatory = some .pF3 then none
  else h.prefixes.repeats

/-- The effective operand size. -/
def operandSizeOf (h : Head) (row : Row) : Width :=
  if h.encoding ≠ .legacy then
    if h.mode.isLong && h.fields.w then .w64 else .w32
  else if h.mode.isLong && (decide (row.sizeRule = .force64) || h.w) then .w64
  else if sizeOverride h row then
    if h.mode = .w16 then .w32 else .w16
  else if h.mode.isLong && decide (row.sizeRule = .default64) then .w64
  else if h.mode = .w16 then .w16
  else .w32

/-- The effective address size. -/
def addressSizeOf (h : Head) : Width :=
  match h.mode, h.prefixes.addressSize with
  | .w64, true => .w32
  | .w64, false => .w64
  | .w32, true => .w16
  | .w32, false => .w32
  | .w16, true => .w32
  | .w16, false => .w16

/-- The vector length and the embedded control. With a register form the broadcast bit turns the
length field into a rounding mode. -/
def vectorLengthOf? (h : Head) (row : Row) (modrm : Option UInt8) :
    Option (VectorLength × EmbeddedControl) :=
  match h.encoding with
  | .legacy => some (.v128, .none)
  | .vex | .xop => some (if h.fields.length = 0 then .v128 else .v256, .none)
  | .evex =>
    if h.fields.broadcast && isRegisterForm modrm then
      if row.registerControl = .rounding then
        some (.v512, .rounding (.ofField h.fields.length))
      else some (.v512, .suppress)
    else if h.fields.length = 0 then some (.v128, .none)
    else if h.fields.length = 1 then some (.v256, .none)
    else if h.fields.length = 2 then some (.v512, .none)
    else none

/-- The frame that a head, an opcode, a row and a ModRM byte make, if the row allows it. -/
def Frame.of? (h : Head) (opcode : Opcode) (row : Row) (modrm : Option UInt8) : Option Frame :=
  if allowsFields h row modrm then
    (vectorLengthOf? h row modrm).map fun (vectorLength, control) =>
      { head := h, opcode, row, modrm, vectorLength, control
        operandSize := operandSizeOf h row, addressSize := addressSizeOf h }
  else none

/-- Reads the ModRM byte if the row has one. -/
def readModrm (row : Row) : Read (Option UInt8) :=
  if row.needsModrm then some <$> Read.inOperand Read.byte else pure none

/-- Reads the rest of the frame of a row. -/
def readRow (h : Head) (opcode : Opcode) (row : Row) : Read Frame := do
  let modrm ← readModrm row
  match Frame.of? h opcode row modrm with
  | none => Read.fail .unknownOpcode
  | some frame => return frame

/-- Chooses the row of an opcode by the byte behind it, and reads the rest of its frame. -/
def selectRow (h : Head) (opcode : Opcode) : Read Frame := do
  let next ← Read.peek?
  match chooseRow (candidates h.encoding opcode.map opcode.byte) h next with
  | .error fault => Read.fail fault
  | .ok row => readRow h opcode row

/-- Reads the frame behind a head. -/
def readSelector (h : Head) : Read Frame := do
  let opcode ← readOpcode h
  selectRow h opcode

/-- Reads an instruction up to its operands. -/
def readFrame (mode : Width) : Read Frame := do
  let h ← readHead mode
  readSelector h

namespace Frame

/-- The register field of the ModRM byte. -/
def regField (f : Frame) : UInt8 :=
  f.modrm.elim 0 fun (m : UInt8) => m >>> 3 &&& 7

/-- The r/m field of the ModRM byte. -/
def rmField (f : Frame) : UInt8 :=
  f.modrm.elim 0 fun (m : UInt8) => m &&& 7

/-- Whether the encoding is EVEX. -/
def isEvex (f : Frame) : Bool :=
  decide (f.head.encoding = .evex)

/-- The write mask. -/
def opmask (f : Frame) : Register :=
  if f.isEvex && f.head.fields.aaa != 0 then .opmaskOf f.head.fields.aaa else .absent

/-- The name of the instruction. -/
def mnemonic (f : Frame) : Mnemonic :=
  match f.row.naming with
  | .always m => m
  | .byOperandSize m16 m32 m64 => pick m16 m32 m64 f.operandSize
  | .byAddressSize m16 m32 m64 => pick m16 m32 m64 f.addressSize
where
  pick (m16 m32 m64 : Mnemonic) : Width → Mnemonic
    | .w16 => m16
    | .w32 => m32
    | .w64 => m64

end Frame

/-- The size of an operand slot in bits. -/
def Size.bits (f : Frame) : Size → UInt16
  | b8 => 8
  | b16 => 16
  | b32 => 32
  | b64 => 64
  | b80 => 80
  | b128 => 128
  | b256 => 256
  | b512 => 512
  | v => f.operandSize.bits
  | z => if f.operandSize = .w16 then 16 else 32
  | y => if f.operandSize = .w64 then 64 else 32
  | native => if f.head.mode.isLong then 64 else 32
  | vec => f.vectorLength.bits
  | vecHalf => f.vectorLength.bits / 2
  | vecQuarter => f.vectorLength.bits / 4
  | vecEighth => f.vectorLength.bits / 8
  | far => f.operandSize.bits + 16
  | descriptor => if f.head.mode.isLong then 80 else 48
  | unsized => 0

end MachineCode.X86
