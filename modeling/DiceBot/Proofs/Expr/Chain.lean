import DiceBot.Dice.Term
import DiceBot.Proofs.Expr.Leaves
import DiceBot.Proofs.Expr.Part

/-!
# Chains of operators and numbers

The operators and numbers that follow an operand in pairs can be read by themselves, with a number
in place of what was read before. What is read so has the value that carrying out the scalings and
then the signs from the left gives. It has one provided that the whole has a value, and it is no
higher than the whole.

## Main definitions

* `Lexeme.chained`: what a number and the pairs of operators and numbers behind it come to
* `Expr.IsPlain`: an expression of numbers, sums and products
* `Expr.Worth`: a plain expression and its value

## Main results

* `Reader.exists_worth_of_adjacentRun`: the pairs read by themselves, and within a whole
-/

namespace DiceBot

/-! ## Arithmetic -/

/-- The operation of a sign between operands. -/
def Sign.applied (s : Sign) (x y : Float) : Float :=
  match s with
  | .plus => x + y
  | .minus => x - y

/-- The operation of a scaling. -/
def Scaling.applied (s : Scaling) (x y : Float) : Float :=
  match s with
  | .times => x * y
  | .over => x / y

namespace Lexeme

/-- What a last term comes to, together with the sum and the sign before it. -/
def closed (sum : Option (Float × Sign)) (term : Float) : Float :=
  match sum with
  | none => term
  | some (x, s) => s.applied x term

/-- What a term comes to, together with the sum and the sign before it and the pairs of operators
and numbers behind it. -/
def chained (sum : Option (Float × Sign)) (term : Float) : List Lexeme → Float
  | scaling s :: number n :: rest => chained sum (s.applied term n.readNumber) rest
  | sign s :: number n :: rest => chained (some (closed sum term, s)) n.readNumber rest
  | _ => closed sum term

end Lexeme

/-! ## Values -/

namespace Expr

/-- An expression holds no dice, and a walk over it reaches as deep as it is high, since there are
no signs and parentheses that would give their places back. -/
structure IsPlain (e : Expr) : Prop where
  leaves : e.leaves = []
  reach : e.reach = e.height

/-- A plain expression has a value wherever there is room for it. -/
structure Worth (e : Expr) (x : Float) : Prop extends IsPlain e where
  value : ∀ total room, e.height ≤ room → e.value total room = .ok x

variable {e l r : Expr} {x y : Float}

theorem isPlain_number (text : Text) (position : Nat) : (number text position).IsPlain :=
  ⟨rfl, rfl⟩

theorem IsPlain.product (hl : l.IsPlain) (hr : r.IsPlain) (s : Scaling) :
    (product s l r).IsPlain where
  leaves := by rw [Expr.leaves, hl.leaves, hr.leaves, List.append_nil]
  reach := by rw [Expr.reach, hl.reach, hr.reach, height]

theorem IsPlain.sum (hl : l.IsPlain) (hr : r.IsPlain) (s : Sign) : (sum s l r).IsPlain where
  leaves := by rw [Expr.leaves, hl.leaves, hr.leaves, List.append_nil]
  reach := by rw [Expr.reach, hl.reach, hr.reach, height]

/-- What comes of a text that is plain: the room that the search for dice takes is more than the
evaluation takes. -/
theorem IsPlain.valueWithin_eq (h : e.IsPlain) {t : Text} (he : t.expr = .ok e) (room : Nat) :
    t.valueWithin room =
      if e.height ≤ room - 2 then e.unrolledValue e.height else .error .tooDeep := by
  rw [Text.valueWithin_eq he h.leaves, h.reach]
  split
  · rename_i hheight
    have hroom : e.height ≤ room - 1 := by omega
    rw [unrolledValue, finiteValue, value_eq_of_height_le hroom le_rfl]
    rfl
  · rfl

theorem worth_number (text : Text) (position : Nat) :
    (number text position).Worth text.readNumber := by
  refine ⟨isPlain_number text position, fun total room h => ?_⟩
  obtain ⟨room, rfl⟩ := Nat.exists_eq_add_of_le' h
  rfl

theorem Worth.product (hl : l.Worth x) (hr : r.Worth y) {s : Scaling}
    (hs : s = .over → (y == 0.0) = false) : (product s l r).Worth (s.applied x y) := by
  refine ⟨hl.toIsPlain.product hr.toIsPlain s, fun total room h => ?_⟩
  obtain ⟨room, rfl⟩ := Nat.exists_eq_add_of_le' (Nat.one_le_of_lt h)
  obtain ⟨hleft, hright⟩ := Nat.max_le.mp (Nat.le_of_succ_le_succ h)
  have hx := hl.value total room hleft
  have hy := hr.value total room hright
  match s, hs with
  | .times, _ =>
    simp only [Expr.value, hx, hy]
    rfl
  | .over, hs =>
    simp only [Expr.value, hx, hy]
    show quotient x y = _
    rw [quotient, hs rfl]
    rfl

theorem Worth.sum (hl : l.Worth x) (hr : r.Worth y) (s : Sign) :
    (sum s l r).Worth (s.applied x y) := by
  refine ⟨hl.toIsPlain.sum hr.toIsPlain s, fun total room h => ?_⟩
  obtain ⟨room, rfl⟩ := Nat.exists_eq_add_of_le' (Nat.one_le_of_lt h)
  obtain ⟨hleft, hright⟩ := Nat.max_le.mp (Nat.le_of_succ_le_succ h)
  have hx := hl.value total room hleft
  have hy := hr.value total room hright
  cases s with
  | plus =>
    simp only [Expr.value, hx, hy]
    rfl
  | minus =>
    simp only [Expr.value, hx, hy]
    rfl

theorem Worth.unrolledValue (h : e.Worth x) :
    e.unrolledValue e.height =
      if x.isFinite then .ok x else .error (.unevaluable .notFinite) := by
  rw [Expr.unrolledValue, finiteValue, h.value _ _ le_rfl]
  rfl

end Expr

/-! ## Reading pairs -/

namespace Level

open DiceBot.Expr (Worth)
open Lexeme (closed)

/-- What one reader has put together at a level is worth something and no higher than what
another one has. -/
structure Mirrors (l : Level) (e : Expr) (l' : Level) (e' : Expr) (sum : Option (Float × Sign))
    (term : Float) : Prop where
  /-- The last term. -/
  term : (l.term e).Worth term
  height : (l.term e).height ≤ (l'.term e').height
  /-- The sum before it. -/
  sum : l.sum = none ∧ sum = none ∨
    ∃ a s x b s', l.sum = some (a, s) ∧ sum = some (x, s) ∧ l'.sum = some (b, s') ∧
      a.Worth x ∧ a.height ≤ b.height

variable {l l' : Level} {e e' : Expr} {sum : Option (Float × Sign)} {term : Float}

theorem Mirrors.worth (h : Mirrors l e l' e' sum term) :
    (l.expr e).Worth (closed sum term) ∧ (l.expr e).height ≤ (l'.expr e').height := by
  obtain ⟨hterm, hheight, ⟨hnone, rfl⟩ | ⟨a, s, x, b, s', hsum, rfl, hsum', hworth, hle⟩⟩ := h
  · have hexpr : l.expr e = l.term e := by rw [expr, hnone]
    rw [hexpr]
    exact ⟨hterm, hheight.trans (l'.height_term_le_height_expr e')⟩
  · have hexpr : l.expr e = .sum s a (l.term e) := by rw [expr, hsum]
    have hexpr' : l'.expr e' = .sum s' b (l'.term e') := by rw [expr, hsum']
    rw [hexpr, hexpr']
    refine ⟨hworth.sum hterm s, ?_⟩
    simp only [Expr.height]
    omega

/-- Both readers read a scaling and a number. -/
theorem Mirrors.scaled (h : Mirrors l e l' e' sum term) {s : Scaling} {n : Text}
    (hs : s = .over → (n.readNumber == 0.0) = false) (p p' : Nat) :
    Mirrors { sum := l.sum, product := some (l.term e, s) } (.number n p)
      { sum := l'.sum, product := some (l'.term e', s) } (.number n p') sum
      (s.applied term n.readNumber) where
  term := h.term.product (Expr.worth_number n p) hs
  height := by
    have hle := h.height
    show max (l.term e).height 1 + 1 ≤ max (l'.term e').height 1 + 1
    omega
  sum := h.sum

/-- Both readers read a sign and a number. -/
theorem Mirrors.added (h : Mirrors l e l' e' sum term) (s : Sign) (n : Text) (p p' : Nat) :
    Mirrors { sum := some (l.expr e, s) } (.number n p) { sum := some (l'.expr e', s) }
      (.number n p') (some (closed sum term, s)) n.readNumber where
  term := Expr.worth_number n p
  height := Nat.le_refl 1
  sum := .inr ⟨_, s, _, _, s, rfl, rfl, rfl, h.worth.1, h.worth.2⟩

end Level

namespace Token

theorem isNumber_eq_true_iff {t : Token} :
    t.lexeme.isNumber = true ↔ ∃ n, t = ⟨.number n, t.position⟩ := by
  obtain ⟨lexeme, position⟩ := t
  cases lexeme <;> simp [Lexeme.isNumber]

theorem isOperator_eq_true_iff {t : Token} :
    t.lexeme.isOperator = true ↔
      (∃ s, t = ⟨.sign s, t.position⟩) ∨ ∃ s, t = ⟨.scaling s, t.position⟩ := by
  obtain ⟨lexeme, position⟩ := t
  cases lexeme <;> simp [Lexeme.isOperator]

/-- Some tokens are read as others of the same lexemes are. -/
theorem map_lexeme_eq_pair {tokens rest : List Token} {t u : Token}
    (h : tokens.map lexeme = (t :: u :: rest).map lexeme) :
    ∃ p q rest', tokens = ⟨t.lexeme, p⟩ :: ⟨u.lexeme, q⟩ :: rest' ∧
      rest'.map lexeme = rest.map lexeme := by
  obtain ⟨⟨_, p⟩, behind, rfl, rfl, hbehind⟩ := List.map_eq_cons_iff.mp h
  obtain ⟨⟨_, q⟩, rest', rfl, rfl, hrest⟩ := List.map_eq_cons_iff.mp hbehind
  exact ⟨p, q, rest', rfl, hrest⟩

end Token

namespace Reader

open DiceBot.Expr (Part Worth)
open Level (Mirrors)
open Lexeme (chained)

variable {tree : Expr} {total : Nat → Option Int} {room : Nat} {x : Float}

/-- A number that is read behind a division sign is not zero, if what is read in the end has a
value. -/
theorem ne_zero_of_scaled {l : Level} {e : Expr} {outer : List (Nat × Level)} {s : Scaling}
    {n : Text} {p : Nat} {rest : List Token} {r : Reader}
    (hr : run ⟨some (.number n p), { sum := l.sum, product := some (l.term e, s) }, outer⟩ rest =
      .ok r)
    (hfinish : r.finish = .ok tree) (hx : tree.value total room = .ok x) :
    s = .over → (n.readNumber == 0.0) = false := by
  rintro rfl
  have hkeeps : Keeps (.product .over (l.term e) (.number n p))
      ⟨some (.number n p), { sum := l.sum, product := some (l.term e, .over) }, outer⟩ :=
    .operand rfl .self
  exact (hkeeps.part_of_run hr hfinish).ne_zero_of_value hx

/-- The pairs of operators and numbers behind an operand are read by themselves, behind another
operand: what is read so is worth what they come to. It is no higher than the whole, which is
assumed to have a value. -/
theorem exists_worth_of_adjacentRun (place : Nat) {following run : List Token} {r : Reader}
    {e e' : Expr} {l l' : Level} {outer : List (Nat × Level)} {sum : Option (Float × Sign)}
    {term : Float} (hm : Mirrors l e l' e' sum term)
    (hr : Reader.run ⟨some e', l', outer⟩ following = .ok r) (hfinish : r.finish = .ok tree)
    (hx : tree.value total room = .ok x)
    (hrun : run.map Token.lexeme = (Token.adjacentRun place following).map Token.lexeme) :
    ∃ a level, Reader.run ⟨some e, l, []⟩ run = .ok ⟨some a, level, []⟩ ∧
      (level.expr a).Worth (chained sum term (run.map Token.lexeme)) ∧
      (level.expr a).height ≤ tree.height := by
  -- both readers go on pair by pair, and the invariant is that the one mirrors the other
  fun_induction Token.adjacentRun place following generalizing run e e' l l' sum term with
  | case1 place operator number rest h ih =>
    obtain ⟨hoperator, -, hnumber, -⟩ := h
    obtain ⟨p, q, rest', rfl, hrest⟩ := Token.map_lexeme_eq_pair hrun
    obtain ⟨n, hn⟩ := Token.isNumber_eq_true_iff.mp hnumber
    rcases Token.isOperator_eq_true_iff.mp hoperator with ⟨s, hs⟩ | ⟨s, hs⟩
    · rw [hs, hn] at hr
      rw [hs, hn]
      have hbehind := ih (hm.added s n q number.position) hr hrest
      exact hbehind
    · rw [hs, hn] at hr
      rw [hs, hn]
      have hne := ne_zero_of_scaled (l := l') (e := e') hr hfinish hx
      have hbehind := ih (hm.scaled hne q number.position) hr hrest
      exact hbehind
  | case2 | case3 =>
    obtain rfl := List.map_eq_nil_iff.mp hrun
    exact ⟨e, l, rfl, hm.worth.1,
      hm.worth.2.trans ((height_le_floor e' l' outer).trans (floor_le_height hr hfinish))⟩

end Reader

end DiceBot
