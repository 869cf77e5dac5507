import Mathlib.Data.List.Forall2
import DiceBot.Expr.Basic

/-!
# Written expressions

An expression is written as tokens: its lexemes from left to right, the leaves at their positions.
Where an operator or a parenthesis stands is not said by the expression.

## Main definitions

* `Expr.IsWrittenAs`: the tokens that write an expression
* `Expr.nesting`: how deeply an expression nests, as its reader counts

## Main results

* `Expr.isWrittenAs_product`, `Expr.isWrittenAs_sum`, `Expr.isWrittenAs_group`: the parts of an
  expression are written by parts of its tokens
-/

namespace DiceBot

namespace Expr

/-- A token has the lexeme that is asked for, at the position that is asked for, if one is. -/
def Fits (wanted : Lexeme × Option Nat) (t : Token) : Prop :=
  wanted.1 = t.lexeme ∧ ∀ position ∈ wanted.2, position = t.position

/-- The tokens that an expression is written as. -/
def IsWrittenAs (e : Expr) (tokens : List Token) : Prop :=
  List.Forall₂ Fits e.lexemes tokens

/-- How deeply an expression nests; a parenthesis counts three times as much as a sign. -/
def nesting : Expr → Nat
  | number _ _ => 0
  | dice _ _ => 0
  | signed _ e => e.nesting + 1
  | product _ l r => max l.nesting r.nesting
  | sum _ l r => max l.nesting r.nesting
  | group e => e.nesting + 3

theorem fits_leaf {l : Lexeme} {position : Nat} {t : Token} :
    Fits (l, some position) t ↔ t = ⟨l, position⟩ := by
  obtain ⟨lexeme, place⟩ := t
  constructor
  · rintro ⟨hl, hp⟩
    have hp : position = place := hp position rfl
    have hl : l = lexeme := hl
    rw [hl, hp]
  · intro h
    cases h
    exact ⟨rfl, fun p hp => (Option.some.inj hp).symm⟩

theorem fits_mark {l : Lexeme} {t : Token} : Fits (l, none) t ↔ t.lexeme = l :=
  ⟨fun h => h.1.symm, fun h => ⟨h.symm, by simp⟩⟩

theorem forall₂_append_left_iff {α β : Type} {R : α → β → Prop} {front back : List α}
    {bs : List β} :
    List.Forall₂ R (front ++ back) bs ↔
      ∃ fs ks, bs = fs ++ ks ∧ List.Forall₂ R front fs ∧ List.Forall₂ R back ks := by
  constructor
  · intro h
    induction front generalizing bs with
    | nil => exact ⟨[], bs, rfl, .nil, h⟩
    | cons a front ih =>
      obtain ⟨b, rest, hab, hrest, rfl⟩ := List.forall₂_cons_left_iff.mp h
      obtain ⟨fs, ks, rfl, hf, hk⟩ := ih hrest
      exact ⟨b :: fs, ks, rfl, .cons hab hf, hk⟩
  · rintro ⟨fs, ks, rfl, hf, hk⟩
    exact List.rel_append hf hk

@[simp] theorem isWrittenAs_number {text : Text} {position : Nat} {tokens : List Token} :
    (number text position).IsWrittenAs tokens ↔ tokens = [⟨.number text, position⟩] := by
  simp [IsWrittenAs, lexemes, List.forall₂_cons_left_iff, fits_leaf]

@[simp] theorem isWrittenAs_dice {text : Text} {position : Nat} {tokens : List Token} :
    (dice text position).IsWrittenAs tokens ↔ tokens = [⟨.dice text, position⟩] := by
  simp [IsWrittenAs, lexemes, List.forall₂_cons_left_iff, fits_leaf]

theorem isWrittenAs_signed {s : Sign} {e : Expr} {tokens : List Token} :
    (signed s e).IsWrittenAs tokens ↔
      ∃ t rest, tokens = t :: rest ∧ t.lexeme = .sign s ∧ e.IsWrittenAs rest := by
  simp only [IsWrittenAs, lexemes, List.forall₂_cons_left_iff, fits_mark]
  constructor
  · rintro ⟨t, rest, ht, hr, rfl⟩
    exact ⟨t, rest, rfl, ht, hr⟩
  · rintro ⟨t, rest, rfl, ht, hr⟩
    exact ⟨t, rest, ht, hr, rfl⟩

/-- Two expressions with an operator between them are written around its token. -/
theorem forall₂_infix_iff {l r : Expr} {mark : Lexeme} {tokens : List Token} :
    List.Forall₂ Fits (l.lexemes ++ (mark, none) :: r.lexemes) tokens ↔
      ∃ front t back, tokens = front ++ t :: back ∧
        l.IsWrittenAs front ∧ t.lexeme = mark ∧ r.IsWrittenAs back := by
  rw [forall₂_append_left_iff]
  simp only [List.forall₂_cons_left_iff, fits_mark]
  constructor
  · rintro ⟨front, _, rfl, hl, t, back, ht, hr, rfl⟩
    exact ⟨front, t, back, rfl, hl, ht, hr⟩
  · rintro ⟨front, t, back, rfl, hl, ht, hr⟩
    exact ⟨front, t :: back, rfl, hl, t, back, ht, hr, rfl⟩

theorem isWrittenAs_product {s : Scaling} {l r : Expr} {tokens : List Token} :
    (product s l r).IsWrittenAs tokens ↔
      ∃ front t back, tokens = front ++ t :: back ∧
        l.IsWrittenAs front ∧ t.lexeme = .scaling s ∧ r.IsWrittenAs back :=
  forall₂_infix_iff

theorem isWrittenAs_sum {s : Sign} {l r : Expr} {tokens : List Token} :
    (sum s l r).IsWrittenAs tokens ↔
      ∃ front t back, tokens = front ++ t :: back ∧
        l.IsWrittenAs front ∧ t.lexeme = .sign s ∧ r.IsWrittenAs back :=
  forall₂_infix_iff

theorem isWrittenAs_group {e : Expr} {tokens : List Token} :
    (group e).IsWrittenAs tokens ↔
      ∃ t inner u, tokens = t :: (inner ++ [u]) ∧
        t.lexeme = .opening ∧ e.IsWrittenAs inner ∧ u.lexeme = .closing := by
  simp only [IsWrittenAs, lexemes, List.cons_append, List.forall₂_cons_left_iff, fits_mark,
    forall₂_append_left_iff, List.forall₂_nil_left_iff]
  constructor
  · rintro ⟨t, _, ht, ⟨inner, _, rfl, hi, u, _, hu, rfl, rfl⟩, rfl⟩
    exact ⟨t, inner, u, rfl, ht, hi, hu⟩
  · rintro ⟨t, inner, u, rfl, ht, hi, hu⟩
    exact ⟨t, _, ht, ⟨inner, _, rfl, hi, u, _, hu, rfl, rfl⟩, rfl⟩

/-- Nothing is written as no tokens. -/
theorem IsWrittenAs.ne_nil {e : Expr} {tokens : List Token} (h : e.IsWrittenAs tokens) :
    tokens ≠ [] := by
  have hne : e.lexemes ≠ [] := by cases e <;> simp [lexemes]
  rintro rfl
  exact hne (List.forall₂_nil_right_iff.mp h)

end Expr

end DiceBot
