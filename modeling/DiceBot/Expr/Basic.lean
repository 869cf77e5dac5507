import DiceBot.Token.Basic

/-!
# Expressions

The trees of roll and arithmetic expressions. Numbers and dice terms are the leaves and remember
their place in the text; parentheses are nodes of their own.

## Main definitions

* `Expr`: an expression
* `Expr.height`: the nodes on the longest path from the root
* `Expr.reach`: the nested calls of a walk over an expression
* `Expr.lexemes`: an expression written from left to right
* `Expr.IsFactor`, `Expr.IsTerm`, `Expr.IsSum`: the trees that the precedences allow
* `Expr.stops`: what a walk from left to right over the dice terms meets
-/

namespace DiceBot

/-- An arithmetic expression over numbers and dice terms. -/
inductive Expr where
  /-- A number. -/
  | number (text : Text) (position : Nat)
  /-- A dice term. -/
  | dice (text : Text) (position : Nat)
  /-- A sign before an operand. -/
  | signed (s : Sign) (operand : Expr)
  /-- A product or a quotient. -/
  | product (s : Scaling) (left right : Expr)
  /-- A sum or a difference. -/
  | sum (s : Sign) (left right : Expr)
  /-- An expression in parentheses. -/
  | group (inner : Expr)
deriving DecidableEq

namespace Expr

/-- The number of nodes on the longest path from the root to a leaf. -/
def height : Expr → Nat
  | number _ _ => 1
  | dice _ _ => 1
  | signed _ e => e.height + 1
  | product _ l r => max l.height r.height + 1
  | sum _ l r => max l.height r.height + 1
  | group e => e.height + 1

/-- The nested calls by which a walk enters an expression: signs and parentheses lead on to what
they stand around. -/
def entry : Expr → Nat
  | number _ _ => 1
  | dice _ _ => 1
  | signed _ e => e.entry + 1
  | product _ _ _ => 1
  | sum _ _ _ => 1
  | group e => e.entry + 1

/-- The nested calls of a walk over an expression. Sums and products keep their place while their
operands are walked over; signs and parentheses give theirs back once they have been entered. -/
def reach : Expr → Nat
  | number _ _ => 1
  | dice _ _ => 1
  | signed _ e => max (e.entry + 1) e.reach
  | product _ l r => max l.reach r.reach + 1
  | sum _ l r => max l.reach r.reach + 1
  | group e => max (e.entry + 1) e.reach

/-- The lexemes of an expression from left to right, with the positions of the leaves. -/
def lexemes : Expr → List (Lexeme × Option Nat)
  | number text position => [(.number text, some position)]
  | dice text position => [(.dice text, some position)]
  | signed s e => (.sign s, none) :: e.lexemes
  | product s l r => l.lexemes ++ (.scaling s, none) :: r.lexemes
  | sum s l r => l.lexemes ++ (.sign s, none) :: r.lexemes
  | group e => (.opening, none) :: e.lexemes ++ [(.closing, none)]

mutual

/-- A factor: a leaf, a signed factor, or any expression in parentheses. -/
inductive IsFactor : Expr → Prop where
  | number (text : Text) (position : Nat) : IsFactor (number text position)
  | dice (text : Text) (position : Nat) : IsFactor (dice text position)
  | signed (s : Sign) {e : Expr} : IsFactor e → IsFactor (signed s e)
  | group {e : Expr} : IsSum e → IsFactor (group e)

/-- A term: a factor, or a term scaled by a factor. -/
inductive IsTerm : Expr → Prop where
  | factor {e : Expr} : IsFactor e → IsTerm e
  | product (s : Scaling) {l r : Expr} : IsTerm l → IsFactor r → IsTerm (product s l r)

/-- A sum: a term, or a sum and a term. -/
inductive IsSum : Expr → Prop where
  | term {e : Expr} : IsTerm e → IsSum e
  | sum (s : Sign) {l r : Expr} : IsSum l → IsTerm r → IsSum (sum s l r)

end

/-- What a walk over an expression meets. -/
inductive Stop where
  /-- A dice term. -/
  | dice (text : Text) (position : Nat)
  /-- A node that lies too deep to be followed. -/
  | abyss
deriving DecidableEq

/-- What a walk from left to right meets when there is room for some nested calls. -/
def stops : (room : Nat) → Expr → List Stop
  | 0, _ => [.abyss]
  | _ + 1, number _ _ => []
  | _ + 1, dice text position => [.dice text position]
  | room + 1, signed _ e => if e.entry ≤ room then stops (room + 1) e else [.abyss]
  | room + 1, product _ l r => stops room l ++ stops room r
  | room + 1, sum _ l r => stops room l ++ stops room r
  | room + 1, group e => if e.entry ≤ room then stops (room + 1) e else [.abyss]

end Expr

end DiceBot
