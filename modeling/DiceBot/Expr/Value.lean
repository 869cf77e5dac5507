import DiceBot.Expr.Parser
import DiceBot.Text.Numeral
import DiceBot.Token.Lexer

/-!
# Values of expressions

The value of an expression in double arithmetic. A dice term has the total that was rolled for it;
an expression without dice has a value of its own.

## Main definitions

* `Expr.value`: the value of an expression, given the totals of its dice
* `Expr.finiteValue`: the value, which has to be finite
* `Text.value`: the value of a text without dice
-/

namespace DiceBot

namespace Expr

/-- How many nested calls there is room for where a text is evaluated. -/
def callRoom : Nat := 996

/-- A quotient; a zero divisor of either sign is refused. -/
def quotient (x y : Float) : Except Fault Float :=
  if y == 0.0 then .error (.unevaluable .divisionByZero) else .ok (x / y)

/-- The value of an expression whose dice terms have the totals that `total` gives for their
positions, following paths of at most `room` nodes. Operands are evaluated from the left. -/
def value (total : Nat → Option Int) : (room : Nat) → Expr → Except Fault Float
  | 0, _ => .error .tooDeep
  | _ + 1, number text _ => .ok text.readNumber
  | _ + 1, dice text position =>
    match total position with
    | none => .error (.unevaluable (.notRolled text))
    | some n => floatOfInteger n
  | room + 1, signed .plus e => value total room e
  | room + 1, signed .minus e => do
    let x ← value total room e
    return -x
  | room + 1, sum .plus l r => do
    let x ← value total room l
    let y ← value total room r
    return x + y
  | room + 1, sum .minus l r => do
    let x ← value total room l
    let y ← value total room r
    return x - y
  | room + 1, product .times l r => do
    let x ← value total room l
    let y ← value total room r
    return x * y
  | room + 1, product .over l r => do
    let x ← value total room l
    let y ← value total room r
    quotient x y
  | room + 1, group e => value total room e

/-- The value of an expression, which has to be finite, within some room. -/
def finiteValue (e : Expr) (total : Nat → Option Int) (room : Nat) : Except Fault Float := do
  let x ← e.value total room
  if x.isFinite then return x else throw (.unevaluable .notFinite)

/-- The value of an expression in which nothing has been rolled. -/
def unrolledValue (e : Expr) (room : Nat) : Except Fault Float :=
  e.finiteValue (fun _ => none) room

/-- The dice terms of an expression from left to right, with their positions, unless there is no
room to walk over all of it. -/
def diceTerms (e : Expr) (room : Nat) : Except Fault (List (Text × Nat)) :=
  (e.stops room).mapM fun
    | .dice text position => .ok (text, position)
    | .abyss => .error .tooDeep

/-- Whether an expression holds dice, as far as a walk from the left can tell. -/
def holdsDice (e : Expr) (room : Nat) : Except Fault Bool :=
  match e.stops room with
  | [] => .ok false
  | .dice _ _ :: _ => .ok true
  | .abyss :: _ => .error .tooDeep

end Expr

namespace Text

/-- The expression that a text is. -/
def expr (t : Text) : Except Fault Expr :=
  match t.tokens with
  | .error cause => .error (.malformed cause)
  | .ok tokens => parse tokens

/-- The value of a text that is an expression without dice, where there is room for some nested
calls. The search for dice takes two of them for itself, and the evaluation one. -/
def valueWithin (t : Text) (room : Nat) : Except Fault Float :=
  match t.expr with
  | .error (.malformed cause) => .error (.unevaluable (.unreadable t cause))
  | .error fault => .error fault
  | .ok e => do
    if ← e.holdsDice (room - 2) then throw (.unevaluable (.holdsDice t))
    else e.unrolledValue (room - 1)

/-- The value of a text that is an expression without dice. -/
def value (t : Text) : Except Fault Float :=
  t.valueWithin Expr.callRoom

end Text

end DiceBot
