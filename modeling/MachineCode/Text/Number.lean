/-!
# Number text

Listings write small values in decimal and larger ones in hexadecimal, with
`0x` in front and no leading zeros. Addresses at the start of a line are
hexadecimal padded to eight digits.
-/

namespace MachineCode.Text

/-- Lower-case hexadecimal digits, without leading zeros. -/
def hex (n : Nat) : String :=
  String.ofList (Nat.toDigits 16 n)

/-- Hexadecimal with `0x` in front. -/
def hex0x (n : Nat) : String :=
  "0x" ++ hex n

/-- Hexadecimal padded with zeros to at least `width` digits. -/
def hexPadded (width n : Nat) : String :=
  let digits := Nat.toDigits 16 n
  String.ofList (List.replicate (width - digits.length) '0' ++ digits)

/-- Decimal up to nine, hexadecimal above. -/
def compact (n : Nat) : String :=
  if n ≤ 9 then String.ofList (Nat.toDigits 10 n) else hex0x n

/-- The magnitude in compact form, with a minus sign in front of negative values. -/
def compactSigned (i : Int) : String :=
  if i < 0 then "-" ++ compact i.natAbs else compact i.natAbs

/-- Decimal digits. -/
def decimal (n : Nat) : String :=
  String.ofList (Nat.toDigits 10 n)

/-- Decimal digits, with a minus sign in front of negative values. -/
def decimalSigned (i : Int) : String :=
  if i < 0 then "-" ++ decimal i.natAbs else decimal i.natAbs

/-- The text filled with blanks on the right to at least `width` characters. -/
def padRight (width : Nat) (s : String) : String :=
  s ++ String.ofList (List.replicate (width - s.length) ' ')

/-- The value of a hexadecimal digit of either case. -/
def hexDigit? (c : Char) : Option Nat :=
  if '0' ≤ c ∧ c ≤ '9' then some (c.toNat - '0'.toNat)
  else if 'a' ≤ c ∧ c ≤ 'f' then some (c.toNat - 'a'.toNat + 10)
  else if 'A' ≤ c ∧ c ≤ 'F' then some (c.toNat - 'A'.toNat + 10)
  else none

/-- The value of a decimal digit. -/
def decimalDigit? (c : Char) : Option Nat :=
  if '0' ≤ c ∧ c ≤ '9' then some (c.toNat - '0'.toNat) else none

/-- The number a digit list denotes in a base, `none` if some character is no digit. -/
def digits? (digit? : Char → Option Nat) (base : Nat) (cs : List Char) : Option Nat :=
  cs.foldl (fun acc c => do return (← acc) * base + (← digit? c)) (some 0)

/-- A number written in hexadecimal digits of either case, at least one. -/
def hexNumber? (cs : List Char) : Option Nat :=
  if cs.isEmpty then none else digits? hexDigit? 16 cs

/-- A number written in decimal digits, at least one. -/
def decimalNumber? (cs : List Char) : Option Nat :=
  if cs.isEmpty then none else digits? decimalDigit? 10 cs

end MachineCode.Text
