import MachineCode.Bytes.Tape
import MachineCode.X86.Prefixes
import MachineCode.X86.Row

/-!
# The head of an instruction

The head is everything before the opcode: the prefix bytes, and for the vector
encodings the escape byte with its payload. The bytes `C4`, `C5`, `62` and `8F`
are escapes or ordinary opcodes depending on the mode and on the byte after
them. A scan tells the head, what it took from the tape, and what stopped it if
it failed; a failed scan shows the head as far as it got.
-/

namespace MachineCode.X86

open Bytes (Tape Read)

/-- Payload fields of the vector encodings. Fields stored inverted are given as meant. -/
structure Fields where
  /-- Extension bits of the register, index and r/m fields. -/
  r : Bool := false
  x : Bool := false
  b : Bool := false
  /-- Second extension bit of the register field. -/
  r2 : Bool := false
  /-- Extension bit of the vvvv field. -/
  v2 : Bool := false
  w : Bool := false
  vvvv : UInt8 := 0
  length : UInt8 := 0
  /-- Number of the mandatory prefix. -/
  pp : UInt8 := 0
  /-- Number of the write mask. -/
  aaa : UInt8 := 0
  zeroing : Bool := false
  broadcast : Bool := false
deriving DecidableEq

/-- The part of an instruction before its opcode. -/
structure Head where
  mode : Width
  prefixes : Prefixes := {}
  encoding : Encoding := .legacy
  map : OpcodeMap := .primary
  fields : Fields := {}
deriving DecidableEq

namespace Head

/-- The mandatory prefix: from the payload, or else the last repeat prefix, or else `66`. -/
def mandatory (h : Head) : Mandatory :=
  if h.encoding = .legacy then
    match h.prefixes.repeats with
    | some b => if b = 0xf3 then .pF3 else .pF2
    | none => if h.prefixes.operandSize then .p66 else .none
  else if h.fields.pp = 1 then .p66
  else if h.fields.pp = 2 then .pF3
  else if h.fields.pp = 3 then .pF2
  else .none

/-- A bit of the extension byte, or the payload field that replaces it. -/
def extensionBit (h : Head) (rexBit : UInt8) (payload : Bool) : Bool :=
  if h.encoding = .legacy then h.prefixes.rex &&& rexBit != 0 else payload

/-- The W bit. -/
def w (h : Head) : Bool :=
  h.extensionBit 8 h.fields.w

/-- Eight if the register field is extended, else zero. -/
def rExt (h : Head) : UInt8 :=
  if h.extensionBit 4 h.fields.r then 8 else 0

/-- Eight if the index field is extended, else zero. -/
def xExt (h : Head) : UInt8 :=
  if h.extensionBit 2 h.fields.x then 8 else 0

/-- Eight if the r/m, base or opcode register field is extended, else zero. -/
def bExt (h : Head) : UInt8 :=
  if h.extensionBit 1 h.fields.b then 8 else 0

/-- Whether an extension byte is in effect. -/
def hasRex (h : Head) : Bool :=
  h.prefixes.rex != 0

/-- The register number in the vvvv field; outside 64-bit mode only its low three bits count. -/
def vvvv (h : Head) : UInt8 :=
  let v := h.fields.vvvv ||| (if h.fields.v2 then 16 else 0)
  if h.mode.isLong then v else v &&& 7

end Head

namespace Fields

/-- Extension bits have no meaning outside 64-bit mode. -/
def inMode (f : Fields) (mode : Width) : Fields :=
  if mode.isLong then f else { f with r := false, x := false, b := false, r2 := false, v2 := false }

/-- The fields of the one-byte payload after `C5`. -/
def ofShort (b : UInt8) : Fields :=
  { r := b &&& 0x80 == 0
    vvvv := ~~~b >>> 3 &&& 0xf
    length := b >>> 2 &&& 1
    pp := b &&& 3 }

/-- The extension bits in the first payload byte after `C4`, `8F` and `62`. -/
def ofFirst (b : UInt8) : Fields :=
  { r := b &&& 0x80 == 0, x := b &&& 0x40 == 0, b := b &&& 0x20 == 0 }

/-- The fields in the second payload byte after `C4` and `8F`. -/
def addSecond (f : Fields) (b : UInt8) : Fields :=
  { f with
    w := b &&& 0x80 != 0
    vvvv := ~~~b >>> 3 &&& 0xf
    length := b >>> 2 &&& 1
    pp := b &&& 3 }

/-- The extension bits in the first payload byte after `62`. -/
def ofLongFirst (b : UInt8) : Fields :=
  { ofFirst b with r2 := b &&& 0x10 == 0 }

/-- The fields in the second and third payload bytes after `62`. -/
def addLong (f : Fields) (b c : UInt8) : Fields :=
  { f with
    w := b &&& 0x80 != 0
    vvvv := ~~~b >>> 3 &&& 0xf
    pp := b &&& 3
    zeroing := c &&& 0x80 != 0
    length := c >>> 5 &&& 3
    broadcast := c &&& 0x10 != 0
    v2 := c &&& 0x08 == 0
    aaa := c &&& 7 }

end Fields

/-- Escape bytes and the encodings they begin. -/
inductive Escape where
  /-- `C5`, one payload byte. -/
  | vexShort
  /-- `C4`, two payload bytes. -/
  | vexLong
  /-- `8F`, two payload bytes. -/
  | xop
  /-- `62`, three payload bytes. -/
  | evex
deriving DecidableEq

namespace Escape

/-- The encoding that an escape begins. -/
def encoding : Escape → Encoding
  | vexShort | vexLong => .vex
  | xop => .xop
  | evex => .evex

/-- The number of payload bytes after an escape. -/
def payloadLength : Escape → Nat
  | vexShort => 1
  | vexLong | xop => 2
  | evex => 3

/-- Whether the next bytes begin with an escape. Outside 64-bit mode `C4`, `C5` and `62` are
escapes only before a byte with both top bits set, and `8F` is one only before a byte whose low
five bits name a map from 8 on. -/
def ofBytes? (mode : Width) : List UInt8 → Option Escape
  | [] => none
  | first :: more =>
    let escapes := mode.isLong || more.head?.any fun (b : UInt8) => b >>> 6 == 3
    if first = 0xc4 then if escapes then some vexLong else none
    else if first = 0xc5 then if escapes then some vexShort else none
    else if first = 0x62 then if escapes then some evex else none
    else if first = 0x8f then
      if more.head?.any fun (b : UInt8) => b &&& 0x1f ≥ 8 then some xop else none
    else none

end Escape

/-- The map that the payload of `C4` or `8F` names. -/
def mapOfPayload? (encoding : Encoding) (number : UInt8) : Option OpcodeMap :=
  if encoding = .vex then
    if number = 1 then some .map0F
    else if number = 2 then some .map0F38
    else if number = 3 then some .map0F3A
    else none
  else if encoding = .xop then
    if number = 8 then some .xop8
    else if number = 9 then some .xop9
    else if number = 0xa then some .xopA
    else none
  else none

/-- The map that the payload of `62` names. -/
def mapOfLongPayload? (number : UInt8) : Option OpcodeMap :=
  if number = 1 then some .map0F
  else if number = 2 then some .map0F38
  else if number = 3 then some .map0F3A
  else none

/-- What a scan of the head found: the head, the tape after it, and what stopped the scan. -/
structure Scan where
  head : Head
  tape : Tape
  fault : Option Fault := none
deriving DecidableEq

namespace Scan

/-- Takes `n` payload bytes and reads them. -/
def payload (h : Head) (t : Tape) (n : Nat) (read : List UInt8 → Head × Option Fault) : Scan :=
  match Read.bytes n t with
  | .ok bytes t =>
    let (head, fault) := read bytes
    { head, tape := t, fault }
  | .error e t => { head := h, tape := t, fault := some e.fault }

/-- Reads the payload byte after `C5`. -/
def readShort (h : Head) : List UInt8 → Head × Option Fault
  | [b] => ({ h with map := .map0F, fields := (Fields.ofShort b).inMode h.mode }, none)
  | _ => (h, some .unknownOpcode)

/-- Reads the payload bytes after `C4` or `8F`. -/
def readMiddle (h : Head) : List UInt8 → Head × Option Fault
  | [b, c] =>
    let fields := Fields.ofFirst b
    match mapOfPayload? h.encoding (b &&& 0x1f) with
    | none => ({ h with fields }, some .unknownOpcode)
    | some map => ({ h with map, fields := (fields.addSecond c).inMode h.mode }, none)
  | _ => (h, some .unknownOpcode)

/-- Reads the payload bytes after `62`, some bits of which are fixed. -/
def readLong (h : Head) : List UInt8 → Head × Option Fault
  | [b, c, d] =>
    if b &&& 0x0c ≠ 0 ∨ c &&& 0x04 = 0 then (h, some .unknownOpcode)
    else
      let fields := Fields.ofLongFirst b
      match mapOfLongPayload? (b &&& 3) with
      | none => ({ h with fields }, some .unknownOpcode)
      | some map => ({ h with map, fields := (fields.addLong c d).inMode h.mode }, none)
  | _ => (h, some .unknownOpcode)

/-- Reads the payload bytes of an escape. -/
def readPayload (h : Head) : Escape → List UInt8 → Head × Option Fault
  | .vexShort => readShort h
  | .vexLong | .xop => readMiddle h
  | .evex => readLong h

/-- Continues at an escape byte. No prefix that would act on a vector encoding may stand before
it. -/
def escaped (h : Head) (escape : Escape) (t : Tape) : Scan :=
  if h.prefixes.actOnVectors then
    { head := h, tape := t, fault := some .unknownOpcode }
  else
    let h := { h with encoding := escape.encoding }
    payload h (t.advance 1) escape.payloadLength (readPayload h escape)

/-- Continues after the prefix bytes. -/
def afterPrefixes (h : Head) (t : Tape) : Scan :=
  match Escape.ofBytes? h.mode t.rest with
  | none => { head := h, tape := t }
  | some escape => escaped h escape t

/-- Collects prefix bytes from the bytes `rest` of an instruction at `start`, of which `used` were
taken before. -/
def collect (mode : Width) (p : Prefixes) (start used : Nat) (rest : List UInt8) : Scan :=
  match rest with
  | [] =>
    { head := { mode, prefixes := p }, tape := { start, used, rest }
      fault := some (.underrun 1 0) }
  | b :: bs =>
    match p.add? mode b with
    | none => afterPrefixes { mode, prefixes := p } { start, used, rest }
    | some p =>
      if p.count > Prefixes.maxCount then
        { head := { mode, prefixes := p }, tape := { start, used := used + 1, rest := bs }
          fault := some (.excessivePrefixes p.count) }
      else collect mode p start (used + 1) bs

end Scan

/-- Scans the head of the instruction at the beginning of a tape. -/
def scan (mode : Width) (t : Tape) : Scan :=
  Scan.collect mode {} t.start t.used t.rest

/-- The failure of a scan that began at an offset. A shortage is reported where it was met, any
other fault at the start. -/
def Scan.error? (s : Scan) (start : Nat) : Option DecodeError :=
  s.fault.map fun fault =>
    match fault with
    | .underrun .. => { offset := start + s.tape.used, fault }
    | _ => { offset := start, fault }

/-- What a scan that began at an offset comes to. -/
def Scan.outcome (s : Scan) (start : Nat) : EStateM.Result DecodeError Tape Head :=
  match s.error? start with
  | none => .ok s.head s.tape
  | some e => .error e s.tape

/-- Reads the head of an instruction. -/
def readHead (mode : Width) : Read Head := fun t =>
  (scan mode t).outcome t.start

end MachineCode.X86
