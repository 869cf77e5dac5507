import DiceBot.Expr.Basic
import DiceBot.Fault

/-!
# Reading expressions

An expression is read token by token. The reader keeps, for each parenthesis that is still open,
the operands and operators that wait for what follows; they are kept by precedence, so that the
finished tree groups operators of one precedence to the left.

## Main definitions

* `Level`: what waits inside one pair of parentheses
* `Reader`: what has been read so far
* `Reader.step`, `Reader.finish`: the next token, and the end
* `parse`: the expression that tokens form

## Main results

* `Reader.run_append`: reading goes on where it stopped
-/

namespace DiceBot

/-- What waits for the next operand inside one pair of parentheses. -/
structure Level where
  /-- A finished left operand of a sum, and the sign behind it. -/
  sum : Option (Expr × Sign) := none
  /-- A finished left operand of a product, and the operator behind it. -/
  product : Option (Expr × Scaling) := none
  /-- The signs before the operand, the nearest first. -/
  signs : List Sign := []
deriving DecidableEq

namespace Level

/-- An operand with the signs that wait for it. -/
def factor (l : Level) (operand : Expr) : Expr :=
  l.signs.foldl (fun e s => .signed s e) operand

/-- The product that an operand completes. -/
def term (l : Level) (operand : Expr) : Expr :=
  match l.product with
  | none => l.factor operand
  | some (left, s) => .product s left (l.factor operand)

/-- The sum that an operand completes. -/
def expr (l : Level) (operand : Expr) : Expr :=
  match l.sum with
  | none => l.term operand
  | some (left, s) => .sum s left (l.term operand)

end Level

/-- What has been read of an expression. -/
structure Reader where
  /-- The operand that was read last; there is none where one is expected. -/
  operand : Option Expr := none
  /-- What waits in the innermost parentheses. -/
  level : Level := {}
  /-- The positions of the open parentheses, the innermost first, and what waits around each. -/
  outer : List (Nat × Level) := []
deriving DecidableEq

namespace Reader

/-- How deeply the next operand is nested; a parenthesis counts three times as much as a sign. -/
def depth (r : Reader) : Nat :=
  3 * r.outer.length + r.level.signs.length + r.outer.foldr (fun o n => o.2.signs.length + n) 0

/-- An operand at this depth is not followed any more. -/
def depthLimit : Nat := 990

/-- The reader, unless it has gone too deep. -/
def withinLimit (r : Reader) : Except Fault Reader :=
  if r.depth < depthLimit then .ok r else .error .tooDeep

/-- The complaint about a token that cannot stand where it does. -/
def unexpected (t : Token) : Fault :=
  .malformed (.unexpectedToken t.text t.position)

/-- Reads a token where an operand is expected. -/
def beforeOperand (r : Reader) (t : Token) : Except Fault Reader :=
  match t.lexeme with
  | .number text => .ok { r with operand := some (.number text t.position) }
  | .dice text => .ok { r with operand := some (.dice text t.position) }
  | .sign s => withinLimit { r with level := { r.level with signs := s :: r.level.signs } }
  | .opening => withinLimit { level := {}, outer := (t.position, r.level) :: r.outer }
  | .scaling _ | .closing => .error (unexpected t)

/-- Reads a token behind an operand. -/
def afterOperand (r : Reader) (e : Expr) (t : Token) : Except Fault Reader :=
  match t.lexeme, r.outer with
  | .sign s, _ => .ok { r with operand := none, level := { sum := some (r.level.expr e, s) } }
  | .scaling s, _ =>
    .ok { r with
      operand := none
      level := { sum := r.level.sum, product := some (r.level.term e, s) } }
  -- the group is an operand of what waits around it
  | .closing, (_, around) :: outer =>
    .ok { operand := some (.group (r.level.expr e)), level := around, outer := outer }
  | _, (position, _) :: _ => .error (.malformed (.unclosed position))
  | _, [] => .error (unexpected t)

/-- Reads one token. -/
def step (r : Reader) (t : Token) : Except Fault Reader :=
  match r.operand with
  | none => r.beforeOperand t
  | some e => r.afterOperand e t

/-- The expression that has been read, if it may end here. -/
def finish (r : Reader) : Except Fault Expr :=
  match r.operand, r.outer with
  | none, _ => .error (.malformed .unexpectedEnd)
  | some _, (position, _) :: _ => .error (.malformed (.unclosed position))
  | some e, [] => .ok (r.level.expr e)

/-- Reads tokens one after another. -/
def run : Reader → List Token → Except Fault Reader
  | r, [] => .ok r
  | r, t :: rest =>
    match r.step t with
    | .error fault => .error fault
    | .ok r => r.run rest

/-- Reading goes on where it stopped. -/
theorem run_append (r : Reader) (front back : List Token) :
    r.run (front ++ back) = (r.run front).bind (·.run back) := by
  induction front generalizing r with
  | nil => rfl
  | cons t rest ih =>
    simp only [List.cons_append, run]
    cases r.step t with
    | error fault => rfl
    | ok next => exact ih next

end Reader

/-- The expression that tokens form. -/
def parse (tokens : List Token) : Except Fault Expr :=
  if tokens = [] then .error (.malformed .empty)
  else (Reader.run {} tokens).bind Reader.finish

end DiceBot
