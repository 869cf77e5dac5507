import DiceBot.Dice.Trace
import DiceBot.Flag
import DiceBot.Journal.Basic

/-!
# Responses to rolls and arithmetic

What the chat is told about an expression, and what the journal is told. Of a command that asks for
too much the chat learns the reason; of one that makes no sense it learns only that. Arithmetic
that has no value is not answered at all. Where an expression is nested too deeply, the journal
shows below the entry the calls in which the fault was met; these lines tell of the program and
nothing of the expression, and are not part of the entry here.

## Main definitions

* `Response`: an answer with the journal entries it caused
* `rollResponse`: the answer to a roll command
* `arithmeticResponse`: the answer to an arithmetic expression, if it has one
* `Text.isRollCommand`, `Text.isArithmeticCommand`: the messages that are answered
-/

namespace DiceBot

/-- An answer, or the fault that was met on the way to it, and what the journal is told. -/
structure Response (α : Type) where
  /-- The answer. -/
  answer : Except Fault α
  /-- The journal entries. -/
  journal : List Entry := []

/-- What the chat is told about a roll that makes no sense. -/
def notUnderstood : Text := "Err: Could not interpret that roll."

/-- How much of an expression the journal shows when the expression is nested too deeply. -/
def journalExcerpt (t : Text) : Text :=
  Text.quoted (t.take 50)

/-- The answer to a roll command that meets a fault. -/
def faultResponse (t : Text) : Fault → Response Text
  | .tooManyDice => { answer := .ok ("Err: " ++ Fault.tooManyDice.message) }
  | .tooDeep =>
    { answer := .ok notUnderstood
      journal := [⟨.error, "擲骰指令巢狀過深: " ++ journalExcerpt t⟩] }
  | .malformed cause =>
    { answer := .ok notUnderstood
      journal := [⟨.warning, "無法解析擲骰指令 " ++ t.quoted ++ ": " ++ cause.message⟩] }
  | .unevaluable cause =>
    { answer := .ok notUnderstood
      journal := [⟨.warning, "無法解析擲骰指令 " ++ t.quoted ++ ": " ++ cause.message⟩] }
  | .numeralTooLong => { answer := .error .numeralTooLong }
  | .totalTooLarge => { answer := .error .totalTooLarge }

/-- The answer to a roll command whose first die has a given number in the sequence of rolls, and
the number of dice that fell. -/
def rollResponse (t : Text) (shaker : Shaker) (index : Nat) : Response Text × Nat :=
  let (outcome, dice) := t.rolled shaker index
  match outcome.bind Outcome.trace with
  | .ok trace => ({ answer := .ok trace }, dice)
  | .error fault => (faultResponse t fault, dice)

/-- The answer to an arithmetic expression; there is none if it has no value. -/
def arithmeticResponse (t : Text) : Response (Option Text) :=
  match t.value with
  | .ok x => { answer := .ok (some (t.escaped ++ " = **" ++ Text.whole x ++ "**")) }
  | .error .tooDeep =>
    { answer := .ok none, journal := [⟨.error, "算式巢狀過深: " ++ journalExcerpt t⟩] }
  | .error .numeralTooLong => { answer := .error .numeralTooLong }
  | .error .totalTooLarge => { answer := .error .totalTooLarge }
  | .error _ => { answer := .ok none }

namespace Text

/-- The expression of a message that begins with an exclamation mark. -/
def command? (t : Text) : Option Text :=
  t.dropStart? "!"

/-- Whether a message is a roll command. -/
def isRollCommand (t : Text) : Bool :=
  t.command?.any isRoll

/-- Whether a message is an arithmetic command. -/
def isArithmeticCommand (t : Text) : Bool :=
  t.command?.any isArithmetic

end Text

end DiceBot
