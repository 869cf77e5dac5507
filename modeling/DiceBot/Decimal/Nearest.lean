import DiceBot.Decimal.Basic
import DiceBot.Decimal.Magnitude

/-!
# Nearest doubles

A number is read as the double nearest to it. The number of its units, cut off, tells how many zero
bits stand behind the mantissa; what is left is rounded, a half going to the even neighbour. A
mantissa that is rounded up to its next power of two is that of the next larger shift, since counts
run on from one shift to the next.

## Main definitions

* `roundHalfEven`: a fraction rounded to a natural number
* `nearestBits`: the count of the double nearest to a fraction
* `Decimal.toFloat`: the double nearest to a decimal
-/

namespace DiceBot

/-- A fraction rounded to the nearest natural number; a half goes to the even neighbour. -/
def roundHalfEven (numerator denominator : Nat) : Nat :=
  let whole := numerator / denominator
  let twice := 2 * (numerator % denominator)
  if twice < denominator ∨ (twice = denominator ∧ whole % 2 = 0) then whole else whole + 1

/-- The count of the double nearest to a fraction. -/
def nearestBits (numerator denominator : Nat) : Nat :=
  let units := numerator * unitsInOne
  let shift := (units / denominator).log2 - fullMantissa.log2
  -- a mantissa rounded up to twice `fullMantissa` has the count of the next shift
  shift * fullMantissa + roundHalfEven units (denominator <<< shift)

namespace Decimal

/-- All doubles but zero and infinity lie between 10 ^ -400 and 10 ^ 400. -/
def farPlace : Nat := 400

/-- The count of the double nearest to a decimal. A decimal far outside the range of doubles is
settled without its power of ten. -/
def nearestBits (d : Decimal) : Nat :=
  if d.digits = 0 ∨ d.place < -farPlace then 0
  else if farPlace < d.place then infinityBits
  else DiceBot.nearestBits (d.digits * tenTo d.exponent.toNat) (tenTo (-d.exponent).toNat)

/-- The double nearest to a decimal, with a sign; beyond the range of doubles it is infinite. -/
def toFloat (negative : Bool) (d : Decimal) : Float :=
  floatOfBits negative d.nearestBits

end Decimal

end DiceBot
