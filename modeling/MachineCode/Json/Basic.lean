import MachineCode.Decimal.Shortest

/-!
# JSON documents

A document is a tree. Numbers keep what their text says: one that is written as
an integer is that integer, any other is a numeral of digits, which becomes a
binary64 number only where a field asks for one. Members of an object keep their
order and may repeat.

The escapes in a string may denote no text, as half of a surrogate pair does.
Such a string is well formed as far as the document goes, and is refused only
where its text is asked for.
-/

namespace MachineCode

/-- A number that is not written as an integer. -/
structure Numeral where
  negative : Bool
  /-- Decimal digits before the point. -/
  whole : List Nat
  /-- Decimal digits behind the point. -/
  fraction : List Nat := []
  exponent : Option Int := none
deriving DecidableEq

/-- A document. -/
inductive Json where
  | null
  | bool (b : Bool)
  | integer (value : Int)
  | decimal (n : Numeral)
  /-- A string; `none` if its escapes denote no text. -/
  | string (s : Option String)
  | array (elements : List Json)
  | object (members : List (Option String × Json))

namespace Numeral

/-- Decimal digits of a number, most significant first. -/
def digitsOf (n : Nat) : List Nat :=
  (Nat.toDigits 10 n).map fun c => c.toNat - '0'.toNat

/-- The shortest numeral of a finite binary64 number. Moderate magnitudes are written without an
exponent and keep one digit behind the point; others have one digit in front of it. A tie goes to
the even digit. -/
def ofBinary64 (x : Binary64) : Numeral :=
  let negative := x.isNegative
  if x.isZero then { negative, whole := [0], fraction := [0] }
  else
    let d := x.shortest .toEven
    let digits := digitsOf d.digits
    let point : Int := digits.length + d.exponent
    if 0 ≤ d.exponent ∧ point ≤ 16 then
      { negative, whole := digits ++ List.replicate d.exponent.toNat 0, fraction := [0] }
    else if 0 < point ∧ point ≤ 16 then
      { negative, whole := digits.take point.toNat, fraction := digits.drop point.toNat }
    else if -5 < point ∧ point ≤ 0 then
      { negative, whole := [0], fraction := List.replicate (-point).toNat 0 ++ digits }
    else
      { negative, whole := digits.take 1, fraction := digits.drop 1, exponent := some (point - 1) }

/-- Adds digits to a significand as long as it stays below 2⁶⁴; the digits from the first that
does not fit are left over. -/
def absorb (significand : Nat) : List Nat → Nat × List Nat
  | [] => (significand, [])
  | d :: ds =>
    let next := significand * 10 + d
    if next < UInt64.size then absorb next ds else (significand, d :: ds)

/-- The greatest exponent that is told apart from greater ones. -/
def maxExponent : Int := 2147483647

/-- The least exponent that is told apart from lesser ones. -/
def minExponent : Int := -2147483648

/-- The binary64 number that a numeral is read as, `none` if it is too great. Digits that the
significand cannot hold count as zeros before the point and are dropped behind it. -/
def toBinary64? (n : Numeral) : Option Binary64 :=
  let (significand, surplus) := absorb 0 n.whole
  let (significand', rest) := absorb significand n.fraction
  let kept : Int := n.fraction.length - rest.length
  let start : Int := surplus.length - kept
  let signed (x : Binary64) : Binary64 := if n.negative then x.neg else x
  let exponent := n.exponent.getD 0
  if maxExponent < exponent.natAbs then
    if significand' ≠ 0 ∧ 0 < exponent then none else some (signed .zero)
  else
    let total := max minExponent (min maxExponent (start + exponent))
    (Binary64.ofScientific? significand' total).map signed

end Numeral

namespace Json

/-- A string with a text. -/
def text (s : String) : Json :=
  string (some s)

/-- A natural number. -/
def nat (n : Nat) : Json :=
  integer n

/-- An object whose keys all have texts. -/
def record (members : List (String × Json)) : Json :=
  object (members.map fun (k, v) => (some k, v))

end Json

end MachineCode
