import MachineCode.Engine

/-!
# Streams of instructions

A stream decodes a buffer on demand, one instruction a step. It ends with the
buffer, or behind the first failure.
-/

namespace MachineCode

open Bytes (Reader)

/-- A buffer that is decoded step by step. -/
structure Stream where
  engine : Engine
  reader : Reader
  /-- The address of the beginning of the buffer. -/
  start : UInt64
  failed : Bool := false
deriving DecidableEq

namespace Stream

/-- The offset of the next instruction. -/
def position (s : Stream) : Nat :=
  s.reader.position

/-- The next instruction or the failure, if there is more, and the stream behind it. -/
def next (s : Stream) : Option (Except DecodeError Instruction) × Stream :=
  if s.failed || s.reader.isEmpty then (none, s)
  else
    match s.engine.decodeAt s.reader (s.start + UInt64.ofNat s.position) with
    | .ok i reader => (some (.ok i), { s with reader })
    | .error e reader => (some (.error e), { s with reader, failed := true })

end Stream

/-- The stream of a buffer that begins at an address. -/
def Engine.stream (e : Engine) (bytes : List UInt8) (address : UInt64) : Stream :=
  { engine := e, reader := Reader.ofPosition bytes 0, start := address }

end MachineCode
