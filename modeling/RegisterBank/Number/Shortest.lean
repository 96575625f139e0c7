import RegisterBank.Number.Binary64

/-!
# The shortest decimal text of a number

A number is written with the fewest digits that read back to it; of two such
decimals the nearer one is taken, and a tie goes to the even digit.  Exponents
from -5 to 15 are written in positional form, which always shows a digit after
the point.
-/

namespace RegisterBank.Number

/-- Digits and a power of ten: `digits * 10 ^ exponent`. -/
structure Decimal where
  digits : Nat
  exponent : Int
  deriving DecidableEq, Repr

/-- The numbers that round to one magnitude lie between `low` and `high`, in
units in which the magnitude itself is `middle`; `unit` of them make one. -/
structure RoundingInterval where
  low : Nat
  middle : Nat
  high : Nat
  unit : Nat
  /-- Whether the two ends round to the magnitude as well. -/
  closed : Bool
  deriving Repr

/-- The rounding interval of a magnitude.  Below a power of two the neighbours
lie half as far apart. -/
def Magnitude.interval (m : Magnitude) : RoundingInterval :=
  let step := m.exponent - 2
  let factor := Nat.pow 2 step.toNat
  let below := if m.significand = Nat.pow 2 52 ∧ leastExponent < m.exponent then 1 else 2
  { low := (4 * m.significand - below) * factor
    middle := 4 * m.significand * factor
    high := (4 * m.significand + 2) * factor
    unit := Nat.pow 2 (-step).toNat
    closed := m.significand % 2 = 0 }

/-- The decimals `count * 10 ^ place` next to the middle of an interval that
lie inside it, the better one first. -/
def RoundingInterval.decimalAt? (interval : RoundingInterval) (place : Int) : Option Decimal :=
  let grid := interval.unit * Nat.pow 10 place.toNat
  let factor := Nat.pow 10 (-place).toNat
  let middle := interval.middle * factor
  let inside (count : Nat) : Bool :=
    if interval.closed then
      interval.low * factor ≤ count * grid && count * grid ≤ interval.high * factor
    else interval.low * factor < count * grid && count * grid < interval.high * factor
  let below := middle / grid
  let choice : Option Nat :=
    match inside below, inside (below + 1) with
    | true, true =>
      let toBelow := middle - below * grid
      let toAbove := (below + 1) * grid - middle
      if toBelow < toAbove then some below
      else if toAbove < toBelow then some (below + 1)
      else some (below + below % 2)
    | true, false => some below
    | false, true => some (below + 1)
    | false, false => none
  choice.map fun count => ⟨count, place⟩

/-- The power of ten of the leading digit of a nonzero quotient. -/
def leadingPlace (numerator denominator : Nat) : Int :=
  if denominator ≤ numerator then
    (Nat.toDigits 10 (numerator / denominator)).length - 1
  else
    let places := (Nat.toDigits 10 (denominator / numerator)).length
    if numerator * Nat.pow 10 (places - 1) = denominator then 1 - places else -places

/-- The shortest decimal that reads back to a nonzero magnitude. -/
def Magnitude.shortest (m : Magnitude) : Decimal :=
  let interval := m.interval
  let leading := leadingPlace interval.middle interval.unit
  match (List.range 17).findSome? fun (count : Nat) =>
      interval.decimalAt? (leading - (count : Int)) with
  | some decimal => decimal
  | none => ⟨m.numerator, 0⟩

/-- The least exponent that is written in positional form. -/
def leastPositional : Int := -5

/-- The greatest exponent that is written in positional form. -/
def greatestPositional : Int := 15

/-- Digits without the zeros at their end, with the power of ten of the last
digit that is left. -/
def dropTrailingZeros (digits : List Char) (exponent : Int) : List Char × Int :=
  let kept := (digits.reverse.dropWhile (· == '0')).reverse
  (kept, exponent + (digits.length - kept.length))

/-- An exponent with its sign. -/
def exponentText (exponent : Int) : String :=
  (if exponent < 0 then "-" else "+") ++ toString exponent.natAbs

/-- The text of a decimal whose digits have no zero at their end. -/
def decimalText (digits : List Char) (exponent : Int) : String :=
  let point := digits.length + exponent
  let leading := point - 1
  if leastPositional ≤ leading ∧ leading ≤ greatestPositional then
    if 0 ≤ exponent then
      String.ofList (digits ++ List.replicate exponent.toNat '0') ++ ".0"
    else if 0 < point then
      String.ofList (digits.take point.toNat) ++ "." ++ String.ofList (digits.drop point.toNat)
    else "0." ++ String.ofList (List.replicate (-point).toNat '0' ++ digits)
  else
    let fraction := digits.drop 1
    String.ofList (digits.take 1) ++ (if fraction.isEmpty then "" else "." ++ String.ofList fraction)
      ++ "e" ++ exponentText leading

/-- The shortest text that reads back to a number. -/
def Binary64.text (number : Binary64) : String :=
  let sign := if number.negative then "-" else ""
  if number.magnitude.isZero then sign ++ "0.0"
  else
    let decimal := number.magnitude.shortest
    let (digits, exponent) := dropTrailingZeros (Nat.toDigits 10 decimal.digits) decimal.exponent
    sign ++ decimalText digits exponent

end RegisterBank.Number
