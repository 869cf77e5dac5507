import DiceBot.Decimal.Notation
import DiceBot.Dice.Command

/-!
# Traces

How a roll is shown in the chat: the command, a line for each dice term with every die and a
subtotal, the flattened command if there were several terms, and the value. Asterisks of the
command are escaped, since the chat reads them as emphasis.

## Main definitions

* `Text.escaped`: a text with its asterisks escaped
* `Roll.line`: the line of a dice term
* `Outcome.trace`: the whole trace
-/

namespace DiceBot

/-- A text with a backslash before each asterisk. -/
def Text.escaped (t : Text) : Text :=
  t.flatMap fun c : CodePoint => if c = '*' then ['\\', '*'] else [c]

namespace Roll

/-- A die in the list of a line; one that was discarded is struck through. -/
def dieText (value : Int) : Except Fault Text := do
  if value < 0 then
    let n ← Text.writeInteger (-value)
    return "~~" ++ n ++ "~~"
  else Text.writeInteger value

/-- How many nested calls there is room for where a subtotal is evaluated: the trace and the line
take one each. -/
def room : Nat := Plan.room - 2

/-- The subtotal of a line: the total of the kept dice and the arithmetic written directly behind
the term. -/
def subtotal (r : Roll) : Except Fault Float := do
  let total ← Text.writeInteger r.total
  Text.valueWithin (total ++ r.suffix) room

/-- The remarks at the end of a line. -/
def remarks (r : Roll) : Text :=
  let success : Text := if r.criticalSuccess then " - **CRITICAL SUCCESS!**" else []
  let failure : Text := if r.criticalFailure then " - **CRITICAL FAILURE!**" else []
  success ++ failure

/-- The line of a dice term. -/
def line (r : Roll) : Except Fault Text := do
  let dice ← r.values.mapM dieText
  let subtotal ← r.subtotal
  let behind : Text := if r.suffix = [] then [] else " " ++ r.suffix.escaped
  return r.text ++ " (" ++ Text.joined ", " dice ++ ")" ++ behind
    ++ " = " ++ Text.whole subtotal ++ r.remarks

end Roll

namespace Outcome

/-- The rolls in the order of their places. -/
def ordered (o : Outcome) : List Roll :=
  o.rolls.mergeSort fun a b => a.place ≤ b.place

/-- The trace of a command. -/
def trace (o : Outcome) : Except Fault Text := do
  let lines ← o.ordered.mapM Roll.line
  let flattened : List Text := if 1 < o.rolls.length then [o.flattened.escaped] else []
  return Text.joined "\n"
    (o.text.escaped :: lines ++ flattened ++ ["**" ++ Text.whole o.total ++ "**"])

end Outcome

end DiceBot
