/-!
# Bytes as numbers

Little- and big-endian values of byte lists, two's complement reading, and the
hexadecimal text of bytes.
-/

namespace MachineCode.Bytes

/-- The number whose least significant byte comes first. -/
def littleEndian : List UInt8 → Nat
  | [] => 0
  | b :: bs => b.toNat + 256 * littleEndian bs

/-- The number whose most significant byte comes first. -/
def bigEndian (bs : List UInt8) : Nat :=
  bs.foldl (fun n b => 256 * n + b.toNat) 0

/-- The value of the low `bits` bits of `n` in two's complement. -/
def signedValue (bits n : Nat) : Int :=
  (BitVec.ofNat bits n).toInt

/-- The little-endian value in 64 bits, zero-extended. -/
def unsigned64 (bs : List UInt8) : UInt64 :=
  UInt64.ofNat (littleEndian bs)

/-- The little-endian value in 64 bits, sign-extended from the width of the bytes. -/
def signed64 (bs : List UInt8) : Int64 :=
  Int64.ofInt (signedValue (8 * bs.length) (littleEndian bs))

end MachineCode.Bytes
