import DiceBot.Proofs.Checked

/-!
# Computations that agree

Two computations agree if they come to the same end: to results that are related, or to faults of
the same kind. What a fault says of the text may differ. Agreement is carried from each step of a
computation to the next, so that two runs can be compared step by step.

## Main definitions

* `Fault.kind`: the kind of a fault
* `Agree`: the ends of two computations are alike

## Main results

* `Agree.bind`, `Agree.mapM`: computations agree if their steps do
-/

namespace DiceBot

/-- The kinds of faults. -/
inductive Fault.Kind where
  | malformed
  | tooManyDice
  | unevaluable
  | numeralTooLong
  | totalTooLarge
  | tooDeep
deriving DecidableEq

/-- The kind of a fault, without what it says of the text. -/
def Fault.kind : Fault → Fault.Kind
  | .malformed _ => .malformed
  | .tooManyDice => .tooManyDice
  | .unevaluable _ => .unevaluable
  | .numeralTooLong => .numeralTooLong
  | .totalTooLarge => .totalTooLarge
  | .tooDeep => .tooDeep

/-- Two computations agree: both have results, and these are related, or both meet faults, and
these are of the same kind. -/
inductive Agree {α β : Type} (R : α → β → Prop) : Except Fault α → Except Fault β → Prop where
  | ok {a : α} {b : β} : R a b → Agree R (.ok a) (.ok b)
  | error {fault fault' : Fault} : fault'.kind = fault.kind →
      Agree R (.error fault) (.error fault')

namespace Agree

variable {α β γ δ : Type} {R : α → β → Prop} {S : γ → δ → Prop} {x : Except Fault α}
  {y : Except Fault β}

/-- A computation agrees with itself. -/
protected theorem rfl {x : Except Fault α} : Agree Eq x x := by
  cases x with
  | ok a => exact .ok rfl
  | error fault => exact .error rfl

/-- What follows two computations that agree agrees if it does so for related results. -/
protected theorem bind {f : α → Except Fault γ} {g : β → Except Fault δ} (h : Agree R x y)
    (hnext : ∀ a b, R a b → Agree S (f a) (g b)) : Agree S (x >>= f) (y >>= g) := by
  cases h with
  | ok hab => exact hnext _ _ hab
  | error hkind => exact .error hkind

/-- A step made for every item of two lists agrees if it does so for the items. -/
protected theorem mapM {as : List α} {bs : List β} {f : α → Except Fault γ}
    {g : β → Except Fault δ} (h : List.Forall₂ (fun a b => Agree S (f a) (g b)) as bs) :
    Agree (List.Forall₂ S) (as.mapM f) (bs.mapM g) := by
  induction h with
  | nil => exact .ok .nil
  | cons hab _ ih =>
    rw [List.mapM_cons, List.mapM_cons]
    apply hab.bind
    intro c d hcd
    apply ih.bind
    intro cs ds hrest
    exact .ok (.cons hcd hrest)

end Agree

end DiceBot
