/-!
# Numbers in the binary64 format

A finite number is `m · 2^q` with a sign. Arithmetic is exact on fractions of
natural numbers, followed by one rounding to the nearest number of the format,
a tie going to the even significand.
-/

namespace MachineCode

/-- A number in the binary64 format, given by its bit pattern. -/
structure Binary64 where
  bits : UInt64
deriving DecidableEq

namespace Binary64

/-- The least significand of a number whose leading bit is not stored. -/
def hiddenBit : Nat := 4503599627370496

/-- Whether the sign bit is set. -/
def isNegative (x : Binary64) : Bool :=
  0x8000000000000000 ≤ x.bits

/-- The exponent field. -/
def exponentField (x : Binary64) : Nat :=
  x.bits.toNat / hiddenBit % 2048

/-- The fraction field. -/
def fractionField (x : Binary64) : Nat :=
  x.bits.toNat % hiddenBit

/-- The significand `m` of a finite number `m · 2^q`. -/
def significand (x : Binary64) : Nat :=
  if x.exponentField = 0 then x.fractionField else hiddenBit + x.fractionField

/-- The exponent `q` of a finite number `m · 2^q`. -/
def exponent (x : Binary64) : Int :=
  if x.exponentField = 0 then -1074 else x.exponentField - 1075

/-- Whether the number is finite. -/
def isFinite (x : Binary64) : Bool :=
  x.exponentField != 2047

/-- Whether the number is zero of either sign. -/
def isZero (x : Binary64) : Bool :=
  x.bits &&& 0x7fffffffffffffff == 0

/-- The same magnitude with the opposite sign. -/
def neg (x : Binary64) : Binary64 :=
  ⟨x.bits ^^^ 0x8000000000000000⟩

/-- Positive zero. -/
def zero : Binary64 :=
  ⟨0⟩

/-- Positive infinity, which stands for every magnitude that is too large. -/
def infinity : Binary64 :=
  ⟨0x7ff0000000000000⟩

/-- `m · 2^q` as a fraction of natural numbers. -/
def scale (m : Nat) (q : Int) : Nat × Nat :=
  (m * Nat.pow 2 q.toNat, Nat.pow 2 (-q).toNat)

/-- The number nearest to `num / den`, a tie going to the even significand. -/
def ofRatio (num den : Nat) : Binary64 :=
  if num = 0 then zero
  else
    let gap : Int := (num.log2 : Int) - den.log2
    -- `num / den` lies between `2 ^ (gap - 1)` and `2 ^ (gap + 1)`
    let atLeast := den * Nat.pow 2 gap.toNat ≤ num * Nat.pow 2 (-gap).toNat
    let q : Int := max (if atLeast then gap - 52 else gap - 53) (-1074)
    let a := num * Nat.pow 2 (-q).toNat
    let b := den * Nat.pow 2 q.toNat
    let floor := a / b
    let rest := a % b
    let up := 2 * rest > b ∨ (2 * rest = b ∧ floor % 2 = 1)
    let m := if up then floor + 1 else floor
    if m < hiddenBit then ⟨UInt64.ofNat m⟩
    else
      let (m, q) := if m = 2 * hiddenBit then (hiddenBit, q + 1) else (m, q)
      let field := (q + 1075).toNat
      if 2047 ≤ field then infinity else ⟨UInt64.ofNat (field * hiddenBit + (m - hiddenBit))⟩

/-- The number nearest to a natural number. -/
def ofNat (n : Nat) : Binary64 :=
  ofRatio n 1

/-- The rounded product of two magnitudes. -/
def mul (x y : Binary64) : Binary64 :=
  let (a, b) := scale (x.significand * y.significand) (x.exponent + y.exponent)
  ofRatio a b

/-- The rounded quotient of two magnitudes, the second not zero. -/
def div (x y : Binary64) : Binary64 :=
  let (a, b) := scale 1 (x.exponent - y.exponent)
  ofRatio (x.significand * a) (y.significand * b)

/-- The number nearest to a power of ten. -/
def tenPow (k : Nat) : Binary64 :=
  ofNat (Nat.pow 10 k)

/-- The magnitude `significand · 10^exponent`, computed with one rounded multiplication or with
rounded divisions by powers of ten up to the 308th; `none` if it is too large. A significand of
more than 53 bits is rounded first, so the result may differ from the nearest number by a unit
in the last place. -/
def ofScientific? (significand : Nat) (exponent : Int) : Option Binary64 :=
  go (exponent.natAbs / 308 + 1) (ofNat significand) exponent
where
  go (steps : Nat) (x : Binary64) (exponent : Int) : Option Binary64 :=
    if exponent.natAbs ≤ 308 then
      if 0 ≤ exponent then
        let y := x.mul (tenPow exponent.toNat)
        if y.isFinite then some y else none
      else some (x.div (tenPow exponent.natAbs))
    else if x.isZero then some x
    else if 0 ≤ exponent then none
    else match steps with
      | 0 => some zero
      | steps + 1 => go steps (x.div (tenPow 308)) (exponent + 308)

end Binary64

end MachineCode
