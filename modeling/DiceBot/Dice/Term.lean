import DiceBot.Text.Numeral
import DiceBot.Token.Lexer

/-!
# Dice terms

A dice term such as `4d6kl3` names a number of dice, their sides, and which of them are kept.

## Main definitions

* `DiceTerm`: the numbers of a dice term, its text and its place
* `DiceTerm.ofText`: the dice term that a text is
* `Token.suffix`: the arithmetic written directly behind a dice term
-/

namespace DiceBot

/-- Which dice of a term are kept. -/
inductive Keep where
  | highest
  | lowest
deriving DecidableEq

/-- A dice term. -/
structure DiceTerm where
  /-- How many dice are rolled. -/
  count : Nat
  /-- How many sides each die has. -/
  sides : Nat
  /-- The term as it is written. -/
  text : Text
  /-- The number of code points before the term. -/
  position : Nat
  /-- Which dice are kept and how many; without it all are. -/
  keep : Option (Keep × Int) := none
  /-- The arithmetic written directly behind the term. -/
  suffix : Text := []
deriving DecidableEq

namespace DiceTerm

/-- The selection that a selector and its number ask for; `k` alone keeps the highest. -/
def readKeep (selector digits : Text) : Except Fault (Keep × Int) := do
  let n ← digits.readNatural
  return (if selector = "kl" then .lowest else .highest, (n : Int))

/-- The dice term of some parts. One die is rolled where no count is written; a term that asks for
too many dice is refused before its sides are looked at. -/
def ofParts (parts : Text.DiceParts) (text : Text) (position : Nat) : Except Fault DiceTerm := do
  let count ← if parts.count = [] then pure 1 else parts.count.readNatural
  if maxDice < count then throw .tooManyDice
  let sides ← parts.sides.readNatural
  if sides = 0 then throw (.malformed (.noSides text))
  let keep ← parts.keep.mapM fun (selector, digits) => readKeep selector digits
  return { count, sides, text, position, keep }

/-- The dice term that a text is; one line end may stand behind it. -/
def ofText (text : Text) (position : Nat) : Except Fault DiceTerm :=
  match text.takeDice? with
  | some (parts, rest) =>
    if rest = [] ∨ rest = "\n" then ofParts parts text position
    else .error (.malformed (.notDice text))
  | none => .error (.malformed (.notDice text))

end DiceTerm

namespace Token

/-- The operators and numbers that follow one another in pairs and without a gap from a place on,
at the front of some tokens. -/
def adjacentRun (place : Nat) : List Token → List Token
  | operator :: number :: rest =>
    if operator.lexeme.isOperator ∧ operator.position = place
        ∧ number.lexeme.isNumber ∧ number.position = operator.stop then
      operator :: number :: adjacentRun number.stop rest
    else []
  | _ => []

/-- The arithmetic written directly behind a token, given the tokens that follow it. -/
def suffix (t : Token) (following : List Token) : Text :=
  (adjacentRun t.stop following).flatMap Token.text

/-- The arithmetic written directly behind the token with a given number; a negative number counts
from the end. -/
def suffixAt? (tokens : List Token) (index : Int) : Option Text :=
  let index := if index < 0 then index + tokens.length else index
  if index < 0 then none
  else tokens[index.toNat]?.map fun t => t.suffix (tokens.drop (index.toNat + 1))

/-- The dice terms among some tokens, each with the tokens that follow it. -/
def diceAmong : List Token → List (Token × List Token)
  | [] => []
  | t :: rest => if t.lexeme.isDice then (t, rest) :: diceAmong rest else diceAmong rest

end Token

end DiceBot
