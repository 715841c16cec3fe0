import MachineCode.X86.Address

/-!
# The body of an instruction

The body is what follows the ModRM byte: the address, and the immediates in the
order of the operand slots. Reading it yields the operands.
-/

namespace MachineCode.X86

open Bytes (Read)

/-- The operands, and what reading them found. -/
structure Body where
  operands : List Operand := []
  sib : Option UInt8 := none
  disp : Int64 := 0
  /-- The last immediate byte. -/
  imm8 : Option UInt8 := none
deriving DecidableEq

/-- What one slot adds to the body. -/
structure SlotValue where
  operands : List Operand
  /-- The displacement, if the slot scales it. -/
  disp : Option Int64 := none
  imm8 : Option UInt8 := none
deriving DecidableEq

namespace SlotValue

/-- A single operand. -/
def ofOperand (o : Operand) : SlotValue :=
  { operands := [o] }

/-- A register operand. -/
def ofRegister (r : Register) (size : UInt16) (access : Access) : SlotValue :=
  ofOperand (.ofRegister (.ofX86 r) size access)

/-- A register operand of the register's own size. -/
def ofWhole (r : Register) (access : Access) : SlotValue :=
  ofRegister r r.size access

end SlotValue

/-- The narrowest vector register that holds this many bits. -/
def vectorBits (bits : UInt16) : UInt16 :=
  if bits ≤ 128 then 128 else if bits ≤ 256 then 256 else 512

/-- The number of bytes of an immediate of some size in bits. -/
def immediateBytes (bits : UInt16) : Nat :=
  let n := bits.toNat / 8
  if n = 1 ∨ n = 2 ∨ n = 4 then n else 8

/-- A branch target, cut to the operand size and to the mode. -/
def branchTarget (f : Frame) (address : UInt64) (length : Nat) (disp : Int64) : UInt64 :=
  let target := address + UInt64.ofNat length + disp.toUInt64
  if f.operandSize = .w16 then target &&& 0xffff
  else if f.head.mode.isLong then target
  else target &&& 0xffffffff

/-- The memory operand of the r/m field. EVEX may broadcast one element, and scales a one-byte
displacement by the size of what is accessed. -/
def memoryOperand (f : Frame) (a : Address) (size : UInt16) (access : Access) :
    Except Fault SlotValue :=
  if f.isEvex then
    if f.head.fields.broadcast then
      let element := if f.row.broadcast = some .e64 then Element.e64 else .e32
      match Broadcast.ofCount? (size / element.bits) with
      | none => .error .unknownOpcode
      | some broadcast => .ok (scaled element.bits (some broadcast))
    else .ok (scaled size none)
  else .ok (.ofOperand (.ofMemory a.memory size access))
where
  scaled (size : UInt16) (broadcast : Option Broadcast) : SlotValue :=
    let disp :=
      if a.shortDisp then a.memory.disp * Int64.ofNat (max (size.toNat / 8) 1) else a.memory.disp
    { operands := [{ Operand.ofMemory { a.memory with disp } size access with broadcast }]
      disp := if a.shortDisp then some disp else none }

/-- What a slot takes from the r/m field: a memory operand, or a register. -/
def rmValue (f : Frame) (a : Option Address) (size : UInt16) (access : Access)
    (register : SlotValue) : Except Fault SlotValue :=
  match a with
  | some a => memoryOperand f a size access
  | none => .ok register

/-- Requires the register form. -/
def rmRegister (a : Option Address) (register : SlotValue) : Except Fault SlotValue :=
  match a with
  | some _ => .error .unknownOpcode
  | none => .ok register

/-- Sixteen if a vector register number has its second extension bit, else zero. -/
def highBank (f : Frame) (bit : Bool) : UInt8 :=
  if f.isEvex && bit then 16 else 0

/-- Memory at a string register. -/
def stringOperand (f : Frame) (segment : Register) (number : UInt8) (size : UInt16)
    (access : Access) : SlotValue :=
  let base := Register.general number f.addressSize.bits false
  .ofOperand (.ofMemory { segment := .ofX86 segment, base := .ofX86 base } size access)

/-- Reads what one operand slot stands for. -/
def readSlot (f : Frame) (a : Option Address) (address : UInt64) (slot : Slot) :
    Read SlotValue := do
  let size := slot.size.bits f
  let access := slot.access
  let h := f.head
  let general (number : UInt8) : SlotValue :=
    .ofRegister (.general number size h.hasRex) size access
  let vector (number : UInt8) : SlotValue :=
    .ofWhole (.vectorOf number (vectorBits size)) access
  let rmNumber := f.rmField ||| h.bExt
  let regNumber := f.regField ||| h.rExt
  match slot.source with
  | .rm => liftExcept (rmValue f a size access (general rmNumber))
  | .mem =>
    match a with
    | some a => liftExcept (memoryOperand f a size access)
    | none => Read.fail .unknownOpcode
  | .rmReg => liftExcept (rmRegister a (general rmNumber))
  | .rmAnyForm => return general rmNumber
  | .reg => return general regNumber
  | .opcodeReg => return general (f.opcode.byte &&& 7 ||| h.bExt)
  | .accumulator => return .ofRegister (.general 0 size false) size access
  | .fixed r => return .ofRegister r size access
  | .segmentReg =>
    let r := Register.segmentOf f.regField
    if r = .absent then Read.fail .unknownOpcode else return .ofRegister r size access
  | .controlReg => return .ofRegister (.controlOf regNumber) size access
  | .debugReg => return .ofRegister (.debugOf regNumber) size access
  | .vecReg => return vector (regNumber ||| highBank f h.fields.r2)
  | .vecRm => liftExcept (rmValue f a size access (vector (rmNumber ||| highBank f h.fields.x)))
  | .vecRmReg => liftExcept (rmRegister a (vector (rmNumber ||| highBank f h.fields.x)))
  | .vecV => return vector h.vvvv
  | .vecImm =>
    let imm ← Read.byte
    let number := imm >>> 4 &&& (if h.mode.isLong then 15 else 7)
    return { vector number with imm8 := some imm }
  | .mmxReg => return .ofRegister (.mmxOf f.regField) 64 access
  | .mmxRm => liftExcept (rmValue f a size access (.ofRegister (.mmxOf f.rmField) 64 access))
  | .mmxRmReg => liftExcept (rmRegister a (.ofRegister (.mmxOf f.rmField) 64 access))
  | .maskReg => return .ofRegister (.opmaskOf f.regField) size access
  | .maskRm =>
    liftExcept (rmValue f a size access (.ofRegister (.opmaskOf f.rmField) size access))
  | .maskV => return .ofRegister (.opmaskOf h.vvvv) size access
  | .regV => return .ofRegister (.general h.vvvv size true) size access
  | .stackTop => return .ofRegister (.stack 0) 80 access
  | .stackRm => return .ofRegister (.stackOf f.rmField) 80 access
  | .one => return .ofOperand (.ofImmediate 1 8)
  | .imm =>
    let value ← Read.unsigned (immediateBytes size)
    return { operands := [.ofImmediate value.toInt64 size]
             imm8 := if size = 8 then some value.toUInt8 else none }
  | .signedImm =>
    let value ← Read.signed (immediateBytes size)
    return .ofOperand (.ofImmediate value f.operandSize.bits)
  | .rel =>
    let disp ← Read.signed (immediateBytes size)
    let length ← Read.used
    return .ofOperand
      (.ofImmediate (branchTarget f address length disp).toInt64 f.operandSize.bits)
  | .offset =>
    let offset ← Read.unsigned f.addressSize.bytes
    let memory := { segment := .ofX86 h.prefixes.segment, disp := offset.toInt64 }
    return .ofOperand (.ofMemory memory size access)
  | .farPointer =>
    let offset ← Read.unsigned (if f.operandSize = .w16 then 2 else 4)
    let selector ← Read.unsigned 2
    return { operands := [.ofImmediate selector.toInt64 16,
                          .ofImmediate offset.toInt64 f.operandSize.bits] }
  | .stringSource => return stringOperand f h.prefixes.segment 6 size access
  | .stringDest => return stringOperand f .es 7 size access
where
  liftExcept (e : Except Fault SlotValue) : Read SlotValue :=
    match e with
    | .ok value => pure value
    | .error fault => Read.fail fault

/-- Reads the slots in order. -/
def readSlots (f : Frame) (a : Option Address) (address : UInt64) :
    List Slot → Body → Read Body
  | [], body => pure body
  | slot :: slots, body => do
    let value ← readSlot f a address slot
    readSlots f a address slots {
      body with
      operands := body.operands ++ value.operands
      disp := value.disp.getD body.disp
      imm8 := value.imm8 <|> body.imm8 }

/-- Puts the write mask on the destination, the first operand. -/
def decorate (f : Frame) (operands : List Operand) : List Operand :=
  if f.isEvex && (decide (f.opmask ≠ .absent) || f.head.fields.zeroing) then
    match operands with
    | [] => []
    | dest :: others =>
      { dest with mask := .ofX86 f.opmask, zeroing := f.head.fields.zeroing } :: others
  else operands

/-- The most bytes that an instruction may have. -/
def maxLength : Nat := 15

/-- Reads the address, unless the r/m field names a register whatever its form. -/
def readAddress (f : Frame) : Read (Option Address) :=
  if f.row.hasSource .rmAnyForm then pure none else Address.read? f

/-- Reads the address and the operand slots. -/
def readOperands (f : Frame) (address : UInt64) : Read Body := do
  let a ← readAddress f
  readSlots f a address f.row.slots { sib := a.bind (·.sib), disp := a.elim 0 (·.memory.disp) }

/-- Reads the body. Too long an instruction is one with too many prefixes. -/
def readBody (f : Frame) (address : UInt64) : Read Body := do
  let body ← Read.inOperand (readOperands f address)
  let length ← Read.used
  if length > maxLength then Read.fail (.excessivePrefixes f.head.prefixes.count)
  else return { body with operands := decorate f body.operands }

end MachineCode.X86
