import DiceBot.Text.Basic

/-!
# The order of texts

Texts are ordered like words in a dictionary whose alphabet is the order of code points by number.

## Main results

* `Text.lt_trichotomy`: of two different texts one comes first
-/

namespace DiceBot

instance : Std.Irrefl (α := CodePoint) (· < ·) where
  irrefl c := Nat.lt_irrefl c.toNat

instance : Trans (α := CodePoint) (· < ·) (· < ·) (· < ·) where
  trans h₁ h₂ := Nat.lt_trans h₁ h₂

theorem CodePoint.lt_trichotomy (a b : CodePoint) : a < b ∨ a = b ∨ b < a := by
  rcases Nat.lt_trichotomy a.toNat b.toNat with h | h | h
  · exact .inl h
  · obtain ⟨n, _⟩ := a
    obtain ⟨m, _⟩ := b
    cases h
    exact .inr (.inl rfl)
  · exact .inr (.inr h)

/-- Of two different texts one comes first. -/
theorem Text.lt_trichotomy (s t : Text) : s < t ∨ s = t ∨ t < s := by
  induction s generalizing t with
  | nil => cases t <;> simp
  | cons a s ih =>
    cases t with
    | nil => simp
    | cons b t =>
      rcases CodePoint.lt_trichotomy a b with h | rfl | h
      · exact .inl (List.cons_lt_cons_iff.mpr (.inl h))
      · rcases ih t with h | rfl | h
        · exact .inl (List.cons_lt_cons_self.mpr h)
        · exact .inr (.inl rfl)
        · exact .inr (.inr (List.cons_lt_cons_self.mpr h))
      · exact .inr (.inr (List.cons_lt_cons_iff.mpr (.inl h)))

end DiceBot
