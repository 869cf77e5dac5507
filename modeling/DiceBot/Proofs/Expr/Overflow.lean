import DiceBot.Expr.Value
import DiceBot.Proofs.Checked
import DiceBot.Proofs.Decimal.Range
import DiceBot.Proofs.Expr.Grammar

/-!
# Totals beyond the range of doubles

Of the faults that evaluating an expression may meet, only one is not accounted for where commands
are answered: a dice term whose total has no double. Operands are evaluated from the left, so it is
met exactly if everything to the left of such a term has a value.

## Main definitions

* `Expr.Overflows`: the walk from the left comes upon a total without a double

## Main results

* `Expr.value_eq_error_iff`: evaluating lets no other fault escape than those totals
* `Text.not_escapes_of_valueWithin`: a text without dice has none of them
-/

namespace DiceBot

/-- Reading tokens lets no fault escape. -/
theorem not_escapes_of_parse {tokens : List Token} {fault : Fault}
    (h : parse tokens = .error fault) : ¬ fault.Escapes := by
  rcases parse_eq_error h with ⟨cause, rfl⟩ | ⟨rfl, _⟩
  · exact Fault.not_escapes_malformed cause
  · exact Fault.not_escapes_tooDeep

namespace Expr

/-- Evaluating within some room comes upon a total without a double, before any other fault. -/
inductive Overflows (total : Nat → Option Int) : Nat → Expr → Prop where
  | dice {room : Nat} {text : Text} {position : Nat} {n : Int} :
      total position = some n → naturalBound ≤ n.natAbs →
      Overflows total (room + 1) (.dice text position)
  | signed {room : Nat} {e : Expr} (s : Sign) :
      Overflows total room e → Overflows total (room + 1) (.signed s e)
  | productLeft {room : Nat} {l r : Expr} (s : Scaling) :
      Overflows total room l → Overflows total (room + 1) (.product s l r)
  | productRight {room : Nat} {l r : Expr} {x : Float} (s : Scaling) :
      value total room l = .ok x → Overflows total room r →
      Overflows total (room + 1) (.product s l r)
  | sumLeft {room : Nat} {l r : Expr} (s : Sign) :
      Overflows total room l → Overflows total (room + 1) (.sum s l r)
  | sumRight {room : Nat} {l r : Expr} {x : Float} (s : Sign) :
      value total room l = .ok x → Overflows total room r →
      Overflows total (room + 1) (.sum s l r)
  | group {room : Nat} {e : Expr} :
      Overflows total room e → Overflows total (room + 1) (.group e)

variable {total : Nat → Option Int} {room : Nat}

theorem Overflows.exists_total {e : Expr} (h : Overflows total room e) :
    ∃ position n, total position = some n := by
  induction h with
  | dice hn _ => exact ⟨_, _, hn⟩
  | signed _ _ ih => exact ih
  | productLeft _ _ ih => exact ih
  | productRight _ _ _ ih => exact ih
  | sumLeft _ _ ih => exact ih
  | sumRight _ _ _ ih => exact ih
  | group _ ih => exact ih

theorem overflows_product_iff {s : Scaling} {l r : Expr} :
    Overflows total (room + 1) (.product s l r) ↔
      Overflows total room l ∨ (∃ x, value total room l = .ok x) ∧ Overflows total room r := by
  constructor
  · intro h
    cases h with
    | productLeft _ h => exact .inl h
    | productRight _ hx h => exact .inr ⟨⟨_, hx⟩, h⟩
  · rintro (h | ⟨⟨x, hx⟩, h⟩)
    · exact .productLeft s h
    · exact .productRight s hx h

theorem overflows_sum_iff {s : Sign} {l r : Expr} :
    Overflows total (room + 1) (.sum s l r) ↔
      Overflows total room l ∨ (∃ x, value total room l = .ok x) ∧ Overflows total room r := by
  constructor
  · intro h
    cases h with
    | sumLeft _ h => exact .inl h
    | sumRight _ hx h => exact .inr ⟨⟨_, hx⟩, h⟩
  · rintro (h | ⟨⟨x, hx⟩, h⟩)
    · exact .sumLeft s h
    · exact .sumRight s hx h

theorem not_escapes_of_quotient {x y : Float} {fault : Fault}
    (h : quotient x y = .error fault) : ¬ fault.Escapes := by
  unfold quotient at h
  split at h
  · cases h
    exact Fault.not_escapes_unevaluable _
  · cases h

/-- The operands of an operator are evaluated one after the other, and what is done with their
values lets no fault escape. -/
theorem bind_value_eq_error_iff {l r : Expr} {k : Float → Float → Except Fault Float}
    {fault : Fault} (hk : ∀ x y, k x y ≠ .error fault)
    (hl : value total room l = .error fault ↔ Overflows total room l ∧ fault = .totalTooLarge)
    (hr : value total room r = .error fault ↔ Overflows total room r ∧ fault = .totalTooLarge) :
    (value total room l >>= fun x => value total room r >>= k x) = .error fault ↔
      (Overflows total room l ∨ (∃ x, value total room l = .ok x) ∧ Overflows total room r) ∧
        fault = .totalTooLarge := by
  rw [bind_bind_eq_error_iff hk, hl, hr, or_and_right, and_assoc]

/-- Evaluating lets a fault escape exactly if it comes upon a total without a double. -/
theorem value_eq_error_iff {e : Expr} {fault : Fault} (hf : fault.Escapes) :
    value total room e = .error fault ↔ Overflows total room e ∧ fault = .totalTooLarge := by
  induction room generalizing e with
  | zero =>
    constructor
    · intro h
      cases h
      exact absurd hf Fault.not_escapes_tooDeep
    · rintro ⟨h, _⟩
      cases h
  | succ room ih =>
    cases e with
    | number text position =>
      constructor
      · intro h
        cases h
      · rintro ⟨h, _⟩
        cases h
    | dice text position =>
      constructor
      · intro h
        rw [value] at h
        split at h
        · cases h
          exact absurd hf (Fault.not_escapes_unevaluable _)
        · rename_i n hn
          obtain ⟨hbound, rfl⟩ := floatOfInteger_eq_error_iff.mp h
          exact ⟨.dice hn hbound, rfl⟩
      · rintro ⟨h, rfl⟩
        cases h with
        | dice hn hbound =>
          rw [value, hn]
          exact floatOfInteger_eq_error_iff.mpr ⟨hbound, rfl⟩
    | signed s e =>
      have hiff : Overflows total (room + 1) (.signed s e) ↔ Overflows total room e :=
        ⟨fun h => by cases h; assumption, .signed s⟩
      rw [hiff, ← ih]
      cases s with
      | plus => rfl
      | minus => simp [value, bind_eq_error_iff, pure, Except.pure]
    | product s l r =>
      rw [overflows_product_iff]
      cases s
      · exact bind_value_eq_error_iff (fun _ _ h => by cases h) ih ih
      · exact bind_value_eq_error_iff (fun _ _ h => not_escapes_of_quotient h hf) ih ih
    | sum s l r =>
      rw [overflows_sum_iff]
      cases s with
      | plus => exact bind_value_eq_error_iff (fun _ _ h => by cases h) ih ih
      | minus => exact bind_value_eq_error_iff (fun _ _ h => by cases h) ih ih
    | group e =>
      have hiff : Overflows total (room + 1) (.group e) ↔ Overflows total room e :=
        ⟨fun h => by cases h; assumption, .group⟩
      rw [hiff, ← ih]
      rfl

/-- The check that a value is finite lets no fault escape. -/
theorem finiteValue_eq_error_iff {e : Expr} {fault : Fault} (hf : fault.Escapes) :
    e.finiteValue total room = .error fault ↔
      Overflows total room e ∧ fault = .totalTooLarge := by
  rw [← value_eq_error_iff hf]
  refine bind_eq_error_iff.trans (or_iff_left ?_)
  rintro ⟨x, _, h⟩
  split at h
  · cases h
  · cases h
    exact Fault.not_escapes_unevaluable _ hf

end Expr

/-- Evaluating a text without dice lets no fault escape. -/
theorem Text.not_escapes_of_valueWithin {t : Text} {room : Nat} {fault : Fault}
    (h : t.valueWithin room = .error fault) : ¬ fault.Escapes := by
  intro hf
  unfold Text.valueWithin at h
  split at h
  · cases h
    exact Fault.not_escapes_unevaluable _ hf
  · rename_i he
    cases h
    unfold Text.expr at he
    split at he
    · cases he
      exact Fault.not_escapes_malformed _ hf
    · exact not_escapes_of_parse he hf
  · rename_i e _
    rcases bind_eq_error_iff.mp h with h | ⟨b, _, h⟩
    · unfold Expr.holdsDice at h
      split at h
      · cases h
      · cases h
      · cases h
        exact Fault.not_escapes_tooDeep hf
    · cases b with
      | true =>
        cases h
        exact Fault.not_escapes_unevaluable _ hf
      | false =>
        obtain ⟨ho, _⟩ := (Expr.finiteValue_eq_error_iff hf).mp h
        obtain ⟨_, _, hn⟩ := ho.exists_total
        cases hn

end DiceBot
