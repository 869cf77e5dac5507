/-!
# Decimals

Numbers as they are written: some digits, and a power of ten behind them.

## Main definitions

* `Decimal`: a natural number times a power of ten
* `tenTo`: the powers of ten
* `digitCount`: the number of digits of a natural number
* `Decimal.place`: where the first digit of a decimal stands
* `Decimal.trimmed`: a decimal without zeros at its end
-/

namespace DiceBot

/-- A natural number times a power of ten. -/
structure Decimal where
  /-- The digits, read as one number. -/
  digits : Nat
  /-- The exponent of the power of ten. -/
  exponent : Int
deriving DecidableEq

/-- A power of ten. -/
def tenTo (n : Nat) : Nat :=
  Nat.pow 10 n

/-- The number of decimal digits of a natural number; zero has none. -/
def digitCount (n : Nat) : Nat :=
  if n = 0 then 0 else (Nat.toDigits 10 n).length

namespace Decimal

/-- A decimal that is not zero lies below this power of ten, and not below the one before. -/
def place (d : Decimal) : Int :=
  digitCount d.digits + d.exponent

/-- The decimal with the zeros at the end of its digits moved into the exponent. -/
def trimmed (d : Decimal) : Decimal :=
  if h : d.digits ≠ 0 ∧ d.digits % 10 = 0 then
    trimmed ⟨d.digits / 10, d.exponent + 1⟩
  else d
termination_by d.digits
decreasing_by exact Nat.div_lt_self (by omega) (by omega)

end Decimal

end DiceBot
