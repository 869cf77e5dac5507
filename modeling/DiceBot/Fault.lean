import DiceBot.Text.Quoted

/-!
# Faults of an expression

What can be wrong with a roll or an arithmetic expression, by cause, and how each cause is worded.

## Main definitions

* `Malformed`: the text is no expression, or a dice term in it is none
* `Unevaluable`: the expression has no value
* `Fault`: all causes, those that only a limit of the bot explains included
* `Fault.message`: the wording
-/

namespace DiceBot

/-- The causes for which a text is refused as an expression. -/
inductive Malformed where
  /-- No lexeme begins here. -/
  | unexpectedCharacter (c : CodePoint) (position : Nat)
  /-- There is nothing to read. -/
  | empty
  /-- An operand is missing at the end. -/
  | unexpectedEnd
  /-- A token stands where it cannot. -/
  | unexpectedToken (text : Text) (position : Nat)
  /-- The parenthesis at this position is never closed. -/
  | unclosed (position : Nat)
  /-- The text is no dice term. -/
  | notDice (text : Text)
  /-- The dice have no sides. -/
  | noSides (text : Text)
deriving DecidableEq

/-- The wording of a cause. -/
def Malformed.message : Malformed → Text
  | .unexpectedCharacter c position =>
    "Unexpected character " ++ Text.quoted [c] ++ " at position " ++ Text.natural position
  | .empty => "Empty expression"
  | .unexpectedEnd => "Unexpected end of expression"
  | .unexpectedToken text position =>
    "Unexpected " ++ text.quoted ++ " at position " ++ Text.natural position
  | .unclosed position => "Unclosed parenthesis at position " ++ Text.natural position
  | .notDice text => "Invalid dice term " ++ text.quoted
  | .noSides text => "Dice must have at least one side: " ++ text.quoted

/-- The causes for which an expression has no value. -/
inductive Unevaluable where
  /-- The text is no expression. -/
  | unreadable (text : Text) (cause : Malformed)
  /-- The text still contains dice. -/
  | holdsDice (text : Text)
  /-- A dice term has no result yet. -/
  | notRolled (text : Text)
  /-- A divisor is zero. -/
  | divisionByZero
  /-- The value is an infinity or no number. -/
  | notFinite
deriving DecidableEq

/-- The wording of a cause. -/
def Unevaluable.message : Unevaluable → Text
  | .unreadable text cause => "Cannot evaluate " ++ text.quoted ++ ": " ++ cause.message
  | .holdsDice text => "Cannot evaluate " ++ text.quoted ++ ": it still contains dice"
  | .notRolled text => "Dice term " ++ text.quoted ++ " has not been rolled"
  | .divisionByZero => "Division by zero"
  | .notFinite => "Result is not a finite number"

/-- The most dice that one term may ask for. -/
def maxDice : Nat := 1000

/-- The causes for which an expression is not answered. -/
inductive Fault where
  /-- The text is no expression, or holds an impossible dice term. -/
  | malformed (cause : Malformed)
  /-- A term asks for more than `maxDice` dice. -/
  | tooManyDice
  /-- The expression has no value. -/
  | unevaluable (cause : Unevaluable)
  /-- A numeral has more digits than are read or written. -/
  | numeralTooLong
  /-- A total lies beyond the range of doubles. -/
  | totalTooLarge
  /-- The expression is nested more deeply than it is followed. -/
  | tooDeep
deriving DecidableEq

/-- The wording of a fault that a user or the journal is told; the faults of a limit have none. -/
def Fault.message : Fault → Text
  | .malformed cause => cause.message
  | .tooManyDice => "Max number of dice is " ++ Text.natural maxDice
  | .unevaluable cause => cause.message
  | .numeralTooLong | .totalTooLarge | .tooDeep => []

end DiceBot
