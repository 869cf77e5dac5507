import DiceBot.Decimal.Basic
import DiceBot.Decimal.Magnitude

/-!
# Shortest decimals

The decimals that round to a given double fill an interval. Of them the one with the fewest digits
names the double; of two equally short ones the nearer, and of two equally near ones the one whose
last digit is even.

## Main definitions

* `Magnitude.readsBack`: the decimals that round to a magnitude
* `Magnitude.shortest`: the shortest of them
-/

namespace DiceBot

namespace Magnitude

/-- How a decimal compares with a number of quarters of the last place of a magnitude. -/
def compareQuarters (x : Magnitude) (d : Decimal) (quarters : Nat) : Ordering :=
  compare (d.digits * tenTo d.exponent.toNat * (4 * unitsInOne))
    ((quarters <<< x.shift) * tenTo (-d.exponent).toNat)

/-- Whether a decimal lies among the numbers that round to the magnitude: from halfway to the
double below up to halfway to the double above, the ends included when the mantissa is even. -/
def readsBack (x : Magnitude) (d : Decimal) : Bool :=
  let low := if x.isNarrowBelow then 4 * x.mantissa - 1 else 4 * x.mantissa - 2
  let high := 4 * x.mantissa + 2
  let even := x.mantissa % 2 == 0
  let atLow := x.compareQuarters d low
  let atHigh := x.compareQuarters d high
  (atLow == .gt || (even && atLow == .eq)) && (atHigh == .lt || (even && atHigh == .eq))

/-- The exponent of the least power of ten above the magnitude. -/
def scale (x : Magnitude) : Int :=
  let whole := x.units / unitsInOne
  if whole = 0 then 1 - (digitCount ((unitsInOne - 1) / x.units) : Int) else digitCount whole

/-- The magnitude on the grid of a power of ten, rounded down. -/
def floorAt (x : Magnitude) (exponent : Int) : Nat :=
  x.units * tenTo (-exponent).toNat / (unitsInOne * tenTo exponent.toNat)

/-- Of two neighbours on a decimal grid the one that reads back. If both do, it is the one on whose
side the middle between them does not lie, and in the middle the even one. -/
@[inline]
def neighbour? (below above : Decimal) (belowReads aboveReads : Bool) (middle : Ordering) :
    Option Decimal :=
  match belowReads, aboveReads, middle with
  | false, false, _ => none
  | true, false, _ => some below
  | false, true, _ => some above
  | true, true, .gt => some below
  | true, true, .lt => some above
  | true, true, .eq => some (if below.digits % 2 = 0 then below else above)

/-- Of the two neighbours of the magnitude on a decimal grid the one that names it, if either
reads back. -/
def onGrid? (x : Magnitude) (exponent : Int) : Option Decimal :=
  let below : Decimal := ⟨x.floorAt exponent, exponent⟩
  let above : Decimal := ⟨below.digits + 1, exponent⟩
  let sum : Decimal := ⟨2 * below.digits + 1, exponent⟩
  neighbour? below above (x.readsBack below) (x.readsBack above)
    (x.compareQuarters sum (8 * x.mantissa))

/-- The decimal that a magnitude is: a unit is 5 ^ 1074 times 10 ^ -1074. -/
def exact (x : Magnitude) : Decimal :=
  ⟨x.units * Nat.pow 5 1074, -1074⟩

/-- The shortest decimal that reads back, its last digit not zero; zero is its own. -/
def shortest (x : Magnitude) : Decimal :=
  if x.mantissa = 0 then ⟨0, 0⟩
  else
    let top := x.scale
    let found := (List.range 17).findSome? fun (n : Nat) => x.onGrid? (top - (n + 1))
    (found.getD x.exact).trimmed

end Magnitude

end DiceBot
