import MachineCode.Decimal.Binary64
import MachineCode.Text.Number

/-!
# Shortest decimal text

The decimal of fewest digits that rounds back to a binary64 number, and of those
the one nearest to it. The reals that round to `m · 2^q` form an interval around
it, with its ends if `m` is even. For one digit, two digits, and so on, the two
neighbours of the number on the decimal grid are tested; seventeen digits always
suffice. A number may lie half-way between two such decimals; which of them is
meant is up to the format that is written.
-/

namespace MachineCode.Binary64

/-- A decimal `digits · 10^exponent`. -/
structure Decimal where
  digits : Nat
  exponent : Int
deriving DecidableEq

/-- Which of two neighbours on a grid stands for a number half-way between them. -/
inductive Tie where
  /-- The greater one. -/
  | up
  /-- The one whose last digit is even. -/
  | toEven
deriving DecidableEq

/-- The choice between a grid point and the next one. -/
def Tie.choose (tie : Tie) (below : Nat) : Nat :=
  match tie with
  | up => below + 1
  | toEven => if below % 2 = 0 then below else below + 1

/-- The exponent of the first decimal digit of `a / b`, both positive. -/
def leadingExponent (a b : Nat) : Int :=
  if b ≤ a then ((Nat.toDigits 10 (a / b)).length : Int) - 1
  else -((Nat.toDigits 10 ((b - 1) / a)).length : Int)

/-- The decimal on the grid of step `10^(-places)` that rounds back to `m · 2^q` and is nearest
to it, if there is one. `lower` is the distance to the lower end of the interval in quarters of
the unit `2^q`. -/
def onGrid? (tie : Tie) (m : Nat) (q : Int) (lower : Nat) (places : Int) : Option Nat :=
  let (u, d) := scale 1 (q - 2)
  let num := u * Nat.pow 10 places.toNat
  let den := d * Nat.pow 10 (-places).toNat
  let value := 4 * m * num
  let fits (n : Nat) : Bool :=
    let point := n * den
    if m % 2 = 0 then (4 * m - lower) * num ≤ point ∧ point ≤ (4 * m + 2) * num
    else (4 * m - lower) * num < point ∧ point < (4 * m + 2) * num
  let below := value / den
  let above := below + 1
  match fits below, fits above with
  | true, true =>
    let down := value - below * den
    let up := above * den - value
    some (if down < up then below else if up < down then above else tie.choose below)
  | true, false => some below
  | false, true => some above
  | false, false => none

/-- The shortest decimal of a positive finite number. -/
def shortest (tie : Tie) (x : Binary64) : Decimal :=
  let m := x.significand
  let q := x.exponent
  let lower := if x.fractionField = 0 ∧ 1 < x.exponentField then 1 else 2
  let (a, b) := scale m q
  let lead := leadingExponent a b
  let found := (List.range 17).findSome? fun (i : Nat) =>
    let places := (i : Int) - lead
    (onGrid? tie m q lower places).map fun n => (n, -places)
  match found with
  | some (n, e) => strip 20 n e
  | none => { digits := 0, exponent := 0 }
where
  /-- Drops trailing zeros. -/
  strip : Nat → Nat → Int → Decimal
    | 0, n, e => { digits := n, exponent := e }
    | steps + 1, n, e =>
      if n % 10 = 0 then strip steps (n / 10) (e + 1) else { digits := n, exponent := e }

/-- Digits with a decimal point and no exponent; an integer has no point. -/
def Decimal.positional (d : Decimal) : String :=
  let cs := Nat.toDigits 10 d.digits
  if 0 ≤ d.exponent then String.ofList (cs ++ List.replicate d.exponent.toNat '0')
  else
    let places := (-d.exponent).toNat
    let cs := List.replicate (places + 1 - cs.length) '0' ++ cs
    let whole := cs.length - places
    String.ofList (cs.take whole ++ '.' :: cs.drop whole)

/-- A sign in front of the text of a magnitude. -/
def withSign (x : Binary64) (text : String) : String :=
  if x.isNegative then "-" ++ text else text

/-- The shortest text without an exponent; a tie goes up. -/
def text (x : Binary64) : String :=
  if !x.isFinite then if x.fractionField = 0 then x.withSign "inf" else "NaN"
  else if x.isZero then x.withSign "0"
  else x.withSign (x.shortest .up).positional

end MachineCode.Binary64
