import DiceBot.Text.Basic
import DiceBot.Decimal.Shortest

/-!
# Decimal notation

A double is written with the fewest digits that identify it: positionally, with at least one
decimal, from 0.0001 up to below 10 ^ 16, and otherwise with a signed exponent of at least two
digits.

## Main definitions

* `Decimal.laidOut`: a decimal in positional or exponent notation
* `Text.float`: a double as text
* `Text.whole`: a double as text, without the decimals when it is an integer
-/

namespace DiceBot

/-- The signed exponent of ten, with at least two digits. -/
def Text.exponent (e : Int) : Text :=
  let digits := Text.natural e.natAbs
  CodePoint.ofChar 'e' :: (if e < 0 then CodePoint.ofChar '-' else CodePoint.ofChar '+')
    :: (if digits.length < 2 then CodePoint.ofChar '0' :: digits else digits)

namespace Decimal

/-- A decimal in positional notation when its first digit stands at a place from 10 ^ -4 to
10 ^ 15, and in exponent notation otherwise. -/
def laidOut (d : Decimal) : Text :=
  let digits := Text.natural d.digits
  let point : Int := digits.length + d.exponent
  let zeros (n : Int) : Text := List.replicate n.toNat (CodePoint.ofChar '0')
  if -4 < point ∧ point ≤ 16 then
    if point ≤ 0 then "0." ++ zeros (-point) ++ digits
    else if digits.length ≤ point then digits ++ zeros (point - digits.length) ++ ".0"
    else digits.take point.toNat ++ "." ++ digits.drop point.toNat
  else
    let decimals : Text := if digits.length = 1 then [] else '.' :: digits.drop 1
    digits.take 1 ++ decimals ++ Text.exponent (point - 1)

end Decimal

/-- A double with the fewest digits that identify it. -/
def Text.float (x : Float) : Text :=
  let sign : Text := if floatIsNegative x then "-" else []
  match Extent.ofFloat x with
  | .finite m => sign ++ m.shortest.laidOut
  | .infinite => sign ++ "inf"
  | .undefined => "nan"

/-- A double as a reader expects a number: an integer in all its digits, anything else with the
fewest digits that identify it. -/
def Text.whole (x : Float) : Text :=
  match floatInteger? x with
  | some n => Text.integer n
  | none => Text.float x

end DiceBot
