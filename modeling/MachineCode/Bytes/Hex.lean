import MachineCode.Text.Number

/-!
# Hexadecimal text of bytes

Two lower-case digits per byte, nothing between them.
-/

namespace MachineCode.Bytes

/-- The two digits of a byte. -/
def hexOfByte (b : UInt8) : List Char :=
  [Nat.digitChar (b.toNat / 16), Nat.digitChar (b.toNat % 16)]

/-- Two digits per byte. -/
def toHex (bs : List UInt8) : String :=
  String.ofList (bs.flatMap hexOfByte)

/-- Reads what `toHex` writes; digits of either case are accepted. -/
def ofHex? (s : String) : Option (List UInt8) :=
  go s.toList
where
  go : List Char → Option (List UInt8)
    | [] => some []
    | [_] => none
    | a :: b :: cs => do
      let hi ← Text.hexDigit? a
      let lo ← Text.hexDigit? b
      return UInt8.ofNat (16 * hi + lo) :: (← go cs)

end MachineCode.Bytes
