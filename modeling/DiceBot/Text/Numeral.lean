import DiceBot.Fault
import DiceBot.Text.Digit
import DiceBot.Decimal.Nearest

/-!
# Numerals

Numbers as they stand in expressions: decimal digits of any script, in a number with at most one
point among them. Integers of more than `maxNumeralDigits` digits are neither read nor written.

## Main definitions

* `Text.digitsValue`: the number that digits denote
* `Text.readNatural`, `Text.writeInteger`: integers within the limit
* `Text.readNumber`: the double nearest to a number
* `floatOfInteger`: the double nearest to an integer
-/

namespace DiceBot

/-- The most digits that an integer may have to be read or written. -/
def maxNumeralDigits : Nat := 4300

namespace Text

/-- The number that a sequence of digits denotes. -/
def digitsValue (t : Text) : Nat :=
  t.foldl (fun value c => 10 * value + c.digit?.getD 0) 0

/-- The natural number that digits denote, unless they are too many. -/
def readNatural (t : Text) : Except Fault Nat :=
  if t.length ≤ maxNumeralDigits then .ok t.digitsValue else .error .numeralTooLong

/-- The numeral of an integer, unless its digits are too many. -/
def writeInteger (n : Int) : Except Fault Text :=
  if n.natAbs < tenTo maxNumeralDigits then .ok (integer n) else .error .numeralTooLong

/-- The double nearest to a number of digits with or without a point; any length is read. -/
def readNumber (t : Text) : Float :=
  let whole := t.takeWhile CodePoint.isDigit
  let decimals := (t.dropWhile CodePoint.isDigit).drop 1
  Decimal.toFloat false ⟨digitsValue (whole ++ decimals), -(decimals.length : Int)⟩

end Text

/-- The double nearest to an integer, unless the integer lies beyond the range of doubles. -/
def floatOfInteger (n : Int) : Except Fault Float :=
  let bits := Decimal.nearestBits ⟨n.natAbs, 0⟩
  if bits < infinityBits then .ok (floatOfBits (n < 0) bits) else .error .totalTooLarge

end DiceBot
