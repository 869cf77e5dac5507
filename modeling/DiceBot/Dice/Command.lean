import DiceBot.Dice.Roll
import DiceBot.Expr.Value

/-!
# Roll commands

A roll command is checked as a whole before its first die falls: it has to be an expression over
which a walk is possible, and all its dice terms have to be good. Then all dice are rolled from
left to right, and the value of the command is computed. An expression may be walked over and still
be too deep to be evaluated, so that its dice fall for nothing.

## Main definitions

* `Plan`: a command that passed all checks
* `Plan.ofText`: the checks
* `Plan.outcome`: the result of a command once its dice have fallen
* `Text.rolled`: checks, dice and result together
-/

namespace DiceBot

/-- A roll command that passed all checks. -/
structure Plan where
  /-- The pieces of the command's text. -/
  pieces : List Piece
  /-- The expression that the command is. -/
  tree : Expr
  /-- The dice terms from left to right. -/
  terms : List DiceTerm
deriving DecidableEq

/-- The result of a roll command. -/
structure Outcome where
  /-- The command as it is written. -/
  text : Text
  /-- The command with each dice term replaced by its total. -/
  flattened : Text
  /-- The rolls from left to right. -/
  rolls : List Roll
  /-- The value of the command. -/
  total : Float

namespace Plan

/-- The command of a text; older saved commands begin with an exclamation mark. -/
def command (t : Text) : Text :=
  (t.dropStart? "!").getD t

/-- The dice terms among some tokens. -/
def readTerms (tokens : List Token) : Except Fault (List DiceTerm) :=
  (Token.diceAmong tokens).mapM fun (t, following) => do
    let term ← DiceTerm.ofText t.text t.position
    return { term with suffix := t.suffix following }

/-- How many nested calls there is room for where a command is carried out: an answer takes one of
them for itself. -/
def room : Nat := Expr.callRoom - 1

/-- The plan of a text. -/
def ofText (t : Text) : Except Fault Plan :=
  match (command t).pieces with
  | .error cause => .error (.malformed cause)
  | .ok pieces => do
    let tokens := placed 0 pieces
    let tree ← parse tokens
    if room < tree.reach then throw .tooDeep
    let terms ← readTerms tokens
    return { pieces, tree, terms }

/-- The text of the command. -/
def text (p : Plan) : Text :=
  p.pieces.flatMap Piece.text

/-- The number of dice that the command rolls. -/
def diceCount (p : Plan) : Nat :=
  p.terms.foldr (fun term n => term.count + n) 0

/-- The text of some pieces with the dice terms replaced in order. -/
def flatten : List Piece → List Text → Text
  | [], _ => []
  | .lexeme (.dice _) :: rest, total :: totals => total ++ flatten rest totals
  | piece :: rest, totals => piece.text ++ flatten rest totals

/-- The totals of some rolls, by the place of the dice term. -/
def totals (rolls : List Roll) (place : Nat) : Option Int :=
  (rolls.find? fun r => r.place = (place : Int)).map Roll.total

/-- The result of the command once its dice have fallen. -/
def outcome (p : Plan) (rolls : List Roll) : Except Fault Outcome := do
  let written ← rolls.mapM fun r => Text.writeInteger r.total
  let total ← p.tree.finiteValue (totals rolls) (room - 1)
  return { text := p.text, flattened := flatten p.pieces written, rolls, total }

end Plan

/-- The result of a roll command whose first die has a given number in the sequence of rolls, and
the number of dice that fell. -/
def Text.rolled (t : Text) (shaker : Shaker) (index : Nat) : Except Fault Outcome × Nat :=
  match Plan.ofText t with
  | .error fault => (.error fault, 0)
  | .ok plan => (plan.outcome (DiceTerm.rollAll shaker index plan.terms), plan.diceCount)

end DiceBot
