import DiceBot.Expr.Value
import DiceBot.Proofs.Agreement
import DiceBot.Proofs.Expr.Leaves

/-!
# Expressions at other places

The tokens of an expression may stand elsewhere than they do, further apart or closer together.
Reading them and evaluating what has been read make no use of the places but to tell the leaves
from one another: moving the tokens moves the leaves of the tree, and changes nothing else.

## Main definitions

* `Token.moved`, `Expr.moved`, `Reader.moved`: tokens, leaves and what has been read, moved

## Main results

* `parse_moved`: tokens that are moved form the expression with its leaves moved
* `Expr.value_moved`: its value, given totals for the new places
* `Token.exists_moved`: tokens with the same lexemes are moved ones
-/

namespace DiceBot

/-- A token moved to another place. -/
def Token.moved (f : Nat → Nat) (t : Token) : Token :=
  { t with position := f t.position }

/-- An expression with its leaves moved to other places. -/
def Expr.moved (f : Nat → Nat) : Expr → Expr
  | number text position => number text (f position)
  | dice text position => dice text (f position)
  | signed s e => signed s (e.moved f)
  | product s l r => product s (l.moved f) (r.moved f)
  | sum s l r => sum s (l.moved f) (r.moved f)
  | group e => group (e.moved f)

/-- What waits for an operand, moved to other places. -/
def Level.moved (f : Nat → Nat) (l : Level) : Level where
  sum := l.sum.map fun (e, s) => (e.moved f, s)
  product := l.product.map fun (e, s) => (e.moved f, s)
  signs := l.signs

/-- What has been read, moved to other places. -/
def Reader.moved (f : Nat → Nat) (r : Reader) : Reader where
  operand := r.operand.map (Expr.moved f)
  level := r.level.moved f
  outer := r.outer.map fun (position, around) => (f position, around.moved f)

variable {f : Nat → Nat}

/-! ## Reading -/

namespace Level

theorem factor_moved (l : Level) (e : Expr) :
    (l.moved f).factor (e.moved f) = (l.factor e).moved f := by
  obtain ⟨sum, product, signs⟩ := l
  induction signs generalizing e with
  | nil => rfl
  | cons s signs ih => exact ih (.signed s e)

theorem term_moved (l : Level) (e : Expr) :
    (l.moved f).term (e.moved f) = (l.term e).moved f := by
  have hfactor := factor_moved (f := f) l e
  obtain ⟨sum, _ | ⟨left, s⟩, signs⟩ := l
  · exact hfactor
  · exact congrArg (Expr.product s (left.moved f)) hfactor

theorem expr_moved (l : Level) (e : Expr) :
    (l.moved f).expr (e.moved f) = (l.expr e).moved f := by
  have hterm := term_moved (f := f) l e
  obtain ⟨_ | ⟨left, s⟩, product, signs⟩ := l
  · exact hterm
  · exact congrArg (Expr.sum s (left.moved f)) hterm

end Level

namespace Reader

theorem depth_moved (r : Reader) : (r.moved f).depth = r.depth := by
  obtain ⟨operand, level, outer⟩ := r
  simp only [depth, moved, Level.moved, List.length_map, List.foldr_map]

theorem withinLimit_moved (r : Reader) :
    Agree (fun a b => b = a.moved f) r.withinLimit (r.moved f).withinLimit := by
  unfold withinLimit
  rw [depth_moved]
  split
  · exact .ok rfl
  · exact .error rfl

/-- A token that is moved is read as it was, into what has been moved. -/
theorem step_moved (r : Reader) (t : Token) :
    Agree (fun a b => b = a.moved f) (r.step t) ((r.moved f).step (t.moved f)) := by
  obtain ⟨lexeme, place⟩ := t
  obtain ⟨_ | e, level, outer⟩ := r
  · cases lexeme with
    | number text => exact .ok rfl
    | dice text => exact .ok rfl
    | sign s => exact withinLimit_moved ⟨none, { level with signs := s :: level.signs }, outer⟩
    | opening => exact withinLimit_moved ⟨none, {}, (place, level) :: outer⟩
    | scaling s => exact .error rfl
    | closing => exact .error rfl
  · have hterm := level.term_moved (f := f) e
    have hexpr := level.expr_moved (f := f) e
    cases lexeme with
    | sign s => exact .ok (congrArg (fun a => Reader.mk none { sum := some (a, s) } _) hexpr)
    | scaling s =>
      exact .ok (congrArg (fun a => Reader.mk none ⟨_, some (a, s), []⟩ _) hterm)
    | closing =>
      cases outer with
      | nil => exact .error rfl
      | cons o outer => exact .ok (congrArg (fun a => Reader.mk (some (.group a)) _ _) hexpr)
    | number text => cases outer <;> exact .error rfl
    | dice text => cases outer <;> exact .error rfl
    | opening => cases outer <;> exact .error rfl

theorem run_moved (r : Reader) (tokens : List Token) :
    Agree (fun a b => b = a.moved f) (r.run tokens)
      ((r.moved f).run (tokens.map (Token.moved f))) := by
  induction tokens generalizing r with
  | nil => exact .ok rfl
  | cons t rest ih =>
    have hstep := step_moved (f := f) r t
    rw [List.map_cons, run, run]
    generalize r.step t = x at hstep ⊢
    generalize (r.moved f).step (t.moved f) = y at hstep ⊢
    cases hstep with
    | error hkind => exact .error hkind
    | ok hnext =>
      rw [hnext]
      exact ih _

theorem finish_moved (r : Reader) :
    Agree (fun a b => b = a.moved f) r.finish (r.moved f).finish := by
  obtain ⟨_ | e, level, _ | ⟨o, outer⟩⟩ := r
  · exact .error rfl
  · exact .error rfl
  · exact .ok (level.expr_moved e)
  · exact .error rfl

end Reader

/-- Tokens that are moved form the expression with its leaves moved, or meet a fault of the same
kind. -/
theorem parse_moved (f : Nat → Nat) (tokens : List Token) :
    Agree (fun a b => b = a.moved f) (parse tokens) (parse (tokens.map (Token.moved f))) := by
  unfold parse
  by_cases hnil : tokens = []
  · rw [if_pos hnil, if_pos (List.map_eq_nil_iff.mpr hnil)]
    exact .error rfl
  · rw [if_neg hnil, if_neg (mt List.map_eq_nil_iff.mp hnil)]
    apply (Reader.run_moved {} tokens).bind
    rintro r _ rfl
    exact r.finish_moved

/-! ## Values -/

namespace Expr

@[simp] theorem height_moved (e : Expr) : (e.moved f).height = e.height := by
  induction e with
  | number | dice => rfl
  | signed s e ih | group e ih => exact congrArg (· + 1) ih
  | product s l r ihl ihr | sum s l r ihl ihr => simp only [moved, height, ihl, ihr]

/-- The value of an expression with its leaves moved, given totals for their new places. -/
theorem value_moved (total : Nat → Option Int) (room : Nat) (e : Expr) :
    (e.moved f).value total room = e.value (fun place => total (f place)) room := by
  induction room generalizing e with
  | zero => rfl
  | succ room ih =>
    cases e with
    | number | dice => rfl
    | signed s e => cases s <;> simp only [moved, value, ih]
    | product s l r => cases s <;> simp only [moved, value, ih]
    | sum s l r => cases s <;> simp only [moved, value, ih]
    | group e => exact ih e

/-- A value depends only on the totals of the dice terms in the expression. -/
theorem value_congr {total total' : Nat → Option Int} {room : Nat} {e : Expr}
    (h : ∀ leaf ∈ e.leaves, total leaf.2 = total' leaf.2) :
    e.value total room = e.value total' room := by
  induction room generalizing e with
  | zero => rfl
  | succ room ih =>
    cases e with
    | number => rfl
    | dice text position =>
      rw [value, value, h (text, position) (List.mem_singleton_self _)]
    | signed s e =>
      have hoperand : ∀ leaf ∈ e.leaves, total leaf.2 = total' leaf.2 := h
      cases s <;> simp only [value, ih hoperand]
    | product s l r =>
      obtain ⟨hl, hr⟩ := List.forall_mem_append.mp h
      cases s <;> simp only [value, ih hl, ih hr]
    | sum s l r =>
      obtain ⟨hl, hr⟩ := List.forall_mem_append.mp h
      cases s <;> simp only [value, ih hl, ih hr]
    | group e => exact ih h

/-- What a walk meets, at other places. -/
def Stop.moved (f : Nat → Nat) : Stop → Stop
  | .dice text position => .dice text (f position)
  | .abyss => .abyss

theorem leaves_moved (e : Expr) :
    (e.moved f).leaves = e.leaves.map fun leaf => (leaf.1, f leaf.2) := by
  induction e with
  | number | dice => rfl
  | signed s e ih | group e ih => exact ih
  | product s l r ihl ihr | sum s l r ihl ihr =>
    rw [moved, leaves, ihl, ihr, leaves, List.map_append]

@[simp] theorem entry_moved (e : Expr) : (e.moved f).entry = e.entry := by
  induction e with
  | number | dice | product | sum => rfl
  | signed s e ih | group e ih => exact congrArg (· + 1) ih

@[simp] theorem reach_moved (e : Expr) : (e.moved f).reach = e.reach := by
  induction e with
  | number | dice => rfl
  | signed s e ih | group e ih => simp only [moved, reach, entry_moved, ih]
  | product s l r ihl ihr | sum s l r ihl ihr => simp only [moved, reach, ihl, ihr]

theorem stops_moved (room : Nat) (e : Expr) :
    (e.moved f).stops room = (e.stops room).map (Stop.moved f) := by
  induction e generalizing room with
  | number | dice => cases room <;> rfl
  | signed s e ih | group e ih =>
    cases room with
    | zero => rfl
    | succ room =>
      rw [moved, stops, entry_moved, ih, stops]
      split <;> rfl
  | product s l r ihl ihr | sum s l r ihl ihr =>
    cases room with
    | zero => rfl
    | succ room => rw [moved, stops, ihl, ihr, stops, List.map_append]

theorem holdsDice_moved (room : Nat) (e : Expr) :
    (e.moved f).holdsDice room = e.holdsDice room := by
  rw [holdsDice, stops_moved, holdsDice]
  cases e.stops room with
  | nil => rfl
  | cons stop rest => cases stop <;> rfl

/-- An expression without dice has the same value elsewhere. -/
theorem unrolledValue_moved (room : Nat) (e : Expr) :
    (e.moved f).unrolledValue room = e.unrolledValue room := by
  unfold unrolledValue finiteValue
  rw [value_moved]

end Expr

/-! ## The same lexemes -/

namespace Token

variable {tokens tokens' : List Token}

/-- Tokens with the lexemes of others that stand at different places are these, moved. -/
theorem exists_moved (hplace : tokens.Pairwise fun t u => t.position < u.position)
    (hlexemes : tokens'.map Token.lexeme = tokens.map Token.lexeme) :
    ∃ f, tokens' = tokens.map (moved f) := by
  induction tokens generalizing tokens' with
  | nil => exact ⟨id, List.map_eq_nil_iff.mp hlexemes⟩
  | cons t rest ih =>
    obtain ⟨hfirst, hplace⟩ := List.pairwise_cons.mp hplace
    obtain ⟨t', rest', rfl, hlexeme, hrest⟩ := List.map_eq_cons_iff.mp hlexemes
    obtain ⟨f, rfl⟩ := ih hplace hrest
    have hmoved : ∀ u ∈ rest, u.moved f = u.moved (Function.update f t.position t'.position) := by
      intro u hu
      have hne : u.position ≠ t.position := Nat.ne_of_gt (hfirst u hu)
      exact congrArg (Token.mk u.lexeme) (Function.update_of_ne hne ..).symm
    refine ⟨Function.update f t.position t'.position, ?_⟩
    rw [List.map_cons, List.map_congr_left hmoved]
    congr 1
    show t' = Token.mk t.lexeme (Function.update f t.position t'.position t.position)
    rw [Function.update_self, ← hlexeme]

end Token

end DiceBot
