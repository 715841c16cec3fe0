import MachineCode.Bytes.Endian
import MachineCode.Fault

/-!
# Reading an instruction

A decoder reads from a tape: the bytes that are left, the number of bytes it has
taken so far, and the offset at which it began. A read takes all the bytes it
asks for, or fails where it stands. A failure keeps the tape, so whoever started
the decoder sees how far it got and can go back.
-/

namespace MachineCode.Bytes

/-- The bytes that are left, the number of bytes taken, and the offset of the first of these. -/
structure Tape where
  start : Nat := 0
  used : Nat := 0
  rest : List UInt8
deriving DecidableEq

namespace Tape

/-- The offset of the next byte. -/
def position (t : Tape) : Nat :=
  t.start + t.used

/-- The tape behind the next `n` bytes. -/
def advance (t : Tape) (n : Nat) : Tape :=
  { t with used := t.used + n, rest := t.rest.drop n }

end Tape

/-- A computation that reads from a tape and may fail. -/
abbrev Read := EStateM DecodeError Tape

namespace Read

variable {α : Type}

/-- Stops with a fault of the instruction as a whole, reported at its start. -/
def fail (fault : Fault) : Read α := fun t =>
  .error { offset := t.start, fault } t

/-- Stops with a shortage, reported where it was met. -/
def short (needed available : Nat) : Read α := fun t =>
  .error { offset := t.position, fault := .underrun needed available } t

/-- Takes the next byte. -/
def byte : Read UInt8 := fun t =>
  match t.rest with
  | [] => short 1 0 t
  | b :: _ => .ok b (t.advance 1)

/-- Takes the next `n` bytes. -/
def bytes (n : Nat) : Read (List UInt8) := fun t =>
  let taken := t.rest.take n
  if taken.length = n then .ok taken (t.advance n) else short n taken.length t

/-- Requires `n` bytes to be left, and takes none of them. -/
def atLeast (n : Nat) : Read Unit := fun t =>
  let left := (t.rest.take n).length
  if left < n then fail (.underrun n left) t else .ok () t

/-- The next byte, if there is one, without taking it. -/
def peek? : Read (Option UInt8) := fun t =>
  .ok t.rest.head? t

/-- The number of bytes taken so far. -/
def used : Read Nat := fun t =>
  .ok t.used t

/-- Takes a zero-extended little-endian integer of `n` bytes. -/
def unsigned (n : Nat) : Read UInt64 :=
  unsigned64 <$> bytes n

/-- Takes a sign-extended little-endian integer of `n` bytes. -/
def signed (n : Nat) : Read Int64 :=
  signed64 <$> bytes n

/-- Reports a shortage of bytes as a truncated operand. -/
def inOperand (m : Read α) : Read α := fun t =>
  match m t with
  | .ok a t => .ok a t
  | .error e t => .error e.inOperand t

/-- Gives the bytes that a computation takes beside its result. -/
def withBytes (m : Read α) : Read (α × List UInt8) := fun t =>
  match m t with
  | .ok a t' => .ok (a, t.rest.take (t'.used - t.used)) t'
  | .error e t' => .error e t'

end Read

end MachineCode.Bytes
