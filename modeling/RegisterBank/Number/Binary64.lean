/-!
# Binary floating point with 64 bits

A finite number is a sign and a magnitude `significand * 2 ^ exponent`.  Every
magnitude is kept in its one normal form: the significand is below `2 ^ 53`,
and it reaches `2 ^ 52` unless the exponent is the least one.  Rounding goes to
the nearest such number, a tie to the even significand, and is done in exact
integer arithmetic.
-/

namespace RegisterBank.Number

/-- The exponent of the smallest magnitudes. -/
def leastExponent : Int := -1074

/-- The exponent of the largest magnitudes. -/
def greatestExponent : Int := 971

/-- A nonnegative finite number, `significand * 2 ^ exponent`. -/
structure Magnitude where
  significand : Nat
  exponent : Int
  deriving DecidableEq, Repr

/-- A finite number with its sign; zero has both signs. -/
structure Binary64 where
  negative : Bool
  magnitude : Magnitude
  deriving DecidableEq, Repr

/-- The quotient of two numbers, rounded to the nearest integer and a tie to
the even one. -/
def roundQuotient (numerator denominator : Nat) : Nat :=
  let quotient := numerator / denominator
  let remainder := numerator % denominator
  if 2 * remainder < denominator then quotient
  else if denominator < 2 * remainder then quotient + 1
  else quotient + quotient % 2

namespace Magnitude

/-- Nothing. -/
def zero : Magnitude := ⟨0, leastExponent⟩

/-- Whether the magnitude is zero. -/
def isZero (m : Magnitude) : Bool := m.significand == 0

/-- The numerator of the magnitude over a power of two. -/
def numerator (m : Magnitude) : Nat := m.significand * Nat.pow 2 m.exponent.toNat

/-- The power of two under the numerator. -/
def denominator (m : Magnitude) : Nat := Nat.pow 2 (-m.exponent).toNat

/-- The quotient `numerator / denominator` in units of `2 ^ exponent`, as a
quotient again. -/
def scale (numerator denominator : Nat) (exponent : Int) : Nat × Nat :=
  (numerator * Nat.pow 2 (-exponent).toNat, denominator * Nat.pow 2 exponent.toNat)

/-- The magnitude nearest to a quotient, or nothing when it is too large. -/
def ofQuotient? (numerator denominator : Nat) : Option Magnitude :=
  if numerator = 0 then some zero
  else
    let low := max ((numerator.log2 : Int) - denominator.log2 - 53) leastExponent
    let scaled := scale numerator denominator low
    let exponent := if scaled.1 / scaled.2 < Nat.pow 2 53 then low else low + 1
    let scaled := scale numerator denominator exponent
    let significand := roundQuotient scaled.1 scaled.2
    let rounded : Magnitude :=
      if significand < Nat.pow 2 53 then ⟨significand, exponent⟩ else ⟨Nat.pow 2 52, exponent + 1⟩
    if rounded.exponent ≤ greatestExponent then some rounded else none

/-- The magnitude nearest to `digits * 10 ^ exponent`, or nothing when it is
too large.  Beyond a few hundred places the answer does not depend on the
digits any more, so no power of ten grows with the exponent. -/
def ofDecimal? (digits : Nat) (exponent : Int) : Option Magnitude :=
  let places : Int := (Nat.toDigits 10 digits).length + exponent
  if digits = 0 then some zero
  else if places > 310 then none
  else if places < -330 then some zero
  else ofQuotient? (digits * Nat.pow 10 exponent.toNat) (Nat.pow 10 (-exponent).toNat)

/-- The nearest magnitude to a product. -/
def mul? (m n : Magnitude) : Option Magnitude :=
  ofQuotient? (m.numerator * n.numerator) (m.denominator * n.denominator)

/-- The nearest magnitude to a quotient of magnitudes. -/
def div? (m n : Magnitude) : Option Magnitude :=
  ofQuotient? (m.numerator * n.denominator) (m.denominator * n.numerator)

end Magnitude

end RegisterBank.Number
