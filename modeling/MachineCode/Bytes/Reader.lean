import MachineCode.Bytes.Checked
import MachineCode.Bytes.Endian
import MachineCode.Fault

/-!
# A reader over a byte buffer

A reader is a buffer and a position in it. Every read takes all the bytes it
asks for or none: on failure the reader stays where it is and the error tells
how many bytes were asked for and how many are left. The position never passes
the end of the buffer, which is part of the type.

Distances ahead of the position come from the caller as 64-bit words, so the sums
of a look ahead need not fit a word. Such a look gives nothing where it would leave
the words, and an answer or a failure everywhere else.
-/

namespace MachineCode.Bytes

/-- The bytes shifted into a word one after the other. -/
def accumulate (bs : List UInt8) : UInt64 :=
  bs.foldl (fun acc b => acc <<< 8 ||| b.toUInt64) 0

/-- The number of bytes up to the last one of `count` bits; one byte behind `offset` even if there
are no bits. -/
def bitStop? (offset : UInt64) (count : UInt32) : Option UInt64 := do
  let sum ← add? offset count.toUInt64
  let last ← add? (sum / 8) (if sum % 8 = 0 then 0 else 1)
  return max last (← add? (offset / 8) 1)

/-- The number of bits behind the last of `count` bits, up to the byte at `stop`. -/
def bitShift? (offset : UInt64) (count : UInt32) (stop : UInt64) : Option UInt64 := do
  let span ← mul? (← sub? stop (offset / 8)) 8
  sub? (← sub? span (offset % 8)) count.toUInt64

/-- The mask of the `count` lowest bits. -/
def bitMask? (count : UInt32) : Option UInt64 :=
  if count = 32 then some 0xffffffff else do sub? (← shiftLeft? 1 count.toUInt64) 1

/-- A buffer and a position in it. -/
structure Reader where
  data : List UInt8
  position : Nat := 0
  position_le : position ≤ data.length := by simp
deriving DecidableEq

namespace Reader

/-- A reader at a position, or at the end if the position lies beyond it. -/
def ofPosition (data : List UInt8) (position : Nat) : Reader :=
  { data, position := min position data.length, position_le := Nat.min_le_right .. }

/-- The reader back at an earlier position. -/
def restore (r : Reader) (position : Nat) : Reader :=
  ofPosition r.data position

/-- The number of bytes left. -/
def remaining (r : Reader) : Nat :=
  r.data.length - r.position

/-- Whether no byte is left. -/
def isEmpty (r : Reader) : Bool :=
  r.remaining == 0

/-- The bytes left. -/
def rest (r : Reader) : List UInt8 :=
  r.data.drop r.position

/-- The bytes from `start` up to the position; none if `start` lies beyond it. -/
def since (r : Reader) (start : Nat) : List UInt8 :=
  (r.data.take r.position).drop (min start r.position)

/-- The failure of a read that asked for `needed` bytes. -/
def underrun (r : Reader) (needed : Nat) : DecodeError :=
  { offset := r.position, fault := .underrun needed r.remaining }

/-- The next `n` bytes, without moving. -/
def peek (r : Reader) (n : Nat) : Except DecodeError (List UInt8) :=
  if n ≤ r.remaining then .ok (r.rest.take n) else .error (r.underrun n)

/-- The byte `ahead` places past the position. -/
def peekAt (r : Reader) (ahead : UInt64) : Option (Except DecodeError UInt8) := do
  let place ← add? (.ofNat r.position) ahead
  match r.data[place.toNat]? with
  | some b => return .ok b
  | none => return .error (r.underrun (← add? ahead 1).toNat)

/-- The next byte, without moving. -/
def peekByte (r : Reader) : Option (Except DecodeError UInt8) :=
  r.peekAt 0

/-- The `count` bits that begin `offset` bits past the position, most significant bit of each
byte first. A look at more than 32 bits is not admitted. -/
def peekBits (r : Reader) (offset : UInt64) (count : UInt32) :
    Option (Except DecodeError UInt32) := do
  guard (count ≤ 32)
  let stop ← bitStop? offset count
  match r.peek stop.toNat with
  | .error err => return .error err
  | .ok bytes =>
    let acc := accumulate (bytes.drop (offset / 8).toNat)
    let shift ← bitShift? offset count stop
    let mask ← bitMask? count
    return .ok ((← shiftRight? acc shift) &&& mask).toUInt32

/-- Takes the next `n` bytes. -/
def consume (r : Reader) (n : Nat) : Except DecodeError (List UInt8 × Reader) :=
  if h : n ≤ r.remaining then
    have fits : r.position + n ≤ r.data.length := by
      have := r.position_le
      unfold remaining at h
      omega
    .ok (r.rest.take n, { r with position := r.position + n, position_le := fits })
  else .error (r.underrun n)

/-- Takes `n` bytes and reads them as a number. -/
def readWith {α : Type} (r : Reader) (n : Nat) (value : List UInt8 → α) :
    Except DecodeError (α × Reader) := do
  let (bytes, r) ← r.consume n
  return (value bytes, r)

/-- A little-endian number of `n` bytes. -/
def readNat (r : Reader) (n : Nat) : Except DecodeError (Nat × Reader) :=
  r.readWith n littleEndian

/-- A 32-bit word in either byte order. -/
def readWord (r : Reader) (bigEndianOrder : Bool) : Except DecodeError (Nat × Reader) :=
  r.readWith 4 (if bigEndianOrder then bigEndian else littleEndian)

/-- The number of bytes a sized read takes: 1, 2 or 4 as asked, 8 for any other size. -/
def integerSize (size : Nat) : Nat :=
  if size = 1 ∨ size = 2 ∨ size = 4 then size else 8

/-- A sign-extended little-endian integer. -/
def readSigned (r : Reader) (size : Nat) : Except DecodeError (Int64 × Reader) :=
  r.readWith (integerSize size) signed64

/-- A zero-extended little-endian integer. -/
def readUnsigned (r : Reader) (size : Nat) : Except DecodeError (UInt64 × Reader) :=
  r.readWith (integerSize size) unsigned64

end Reader

end MachineCode.Bytes
