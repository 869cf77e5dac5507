import Mathlib.Data.List.Forall2
import DiceBot.Fault

/-!
# Checks one after another

Steps that may meet a fault, and what it means that a sequence of them met none, or met one.

## Main definitions

* `Fault.Escapes`: the faults for which there is no answer

## Main results

* `bind_eq_ok_iff`, `bind_eq_error_iff`: a step and what follows it
* `mapM_eq_ok_iff`, `mapM_eq_error_iff`: the same step for every item of a list
-/

namespace DiceBot

/-! ## Faults without an answer -/

/-- The faults for which there is no answer. -/
def Fault.Escapes (fault : Fault) : Prop :=
  fault = .numeralTooLong ∨ fault = .totalTooLarge

namespace Fault

theorem not_escapes_malformed (cause : Malformed) : ¬ (malformed cause).Escapes := by
  rintro (h | h) <;> cases h

theorem not_escapes_unevaluable (cause : Unevaluable) : ¬ (unevaluable cause).Escapes := by
  rintro (h | h) <;> cases h

theorem not_escapes_tooManyDice : ¬ tooManyDice.Escapes := by
  rintro (h | h) <;> cases h

theorem not_escapes_tooDeep : ¬ tooDeep.Escapes := by
  rintro (h | h) <;> cases h

end Fault

/-! ## Sequences -/

variable {ε α β : Type} {x : Except ε α} {f : α → Except ε β} {as : List α}

theorem bind_eq_ok_iff {b : β} : (x >>= f) = .ok b ↔ ∃ a, x = .ok a ∧ f a = .ok b := by
  cases x with
  | error fault => simp [bind, Except.bind]
  | ok a => simp [bind, Except.bind]

theorem bind_eq_error_iff {fault : ε} :
    (x >>= f) = .error fault ↔ x = .error fault ∨ ∃ a, x = .ok a ∧ f a = .error fault := by
  cases x with
  | error fault => simp [bind, Except.bind]
  | ok a => simp [bind, Except.bind]

theorem bind_pure_eq_error_iff {g : α → β} {fault : ε} :
    (x >>= fun a => pure (g a)) = .error fault ↔ x = .error fault :=
  bind_eq_error_iff.trans (or_iff_left fun ⟨_, _, h⟩ => by cases h)

theorem exists_bind_pure_eq_ok_iff {g : α → β} :
    (∃ b, (x >>= fun a => pure (g a)) = .ok b) ↔ ∃ a, x = .ok a := by
  constructor
  · rintro ⟨b, h⟩
    obtain ⟨a, ha, _⟩ := bind_eq_ok_iff.mp h
    exact ⟨a, ha⟩
  · rintro ⟨a, ha⟩
    exact ⟨g a, bind_eq_ok_iff.mpr ⟨a, ha, rfl⟩⟩

/-- Two steps may be exchanged for steps with the same results. -/
theorem bind_bind_eq_ok {y y' z z' : Except ε α} {k : α → α → Except ε β} {b : β}
    (hy : ∀ a, y = .ok a → y' = .ok a) (hz : ∀ a, z = .ok a → z' = .ok a)
    (h : (y >>= fun a => z >>= k a) = .ok b) : (y' >>= fun a => z' >>= k a) = .ok b := by
  obtain ⟨a, ha, h⟩ := bind_eq_ok_iff.mp h
  obtain ⟨a', ha', h⟩ := bind_eq_ok_iff.mp h
  exact bind_eq_ok_iff.mpr ⟨a, hy a ha, bind_eq_ok_iff.mpr ⟨a', hz a' ha', h⟩⟩

/-- A fault that what follows two steps never meets is met by one of the steps. -/
theorem bind_bind_eq_error_iff {y z : Except ε α} {k : α → α → Except ε β} {fault : ε}
    (hk : ∀ a b, k a b ≠ .error fault) :
    (y >>= fun a => z >>= k a) = .error fault ↔
      y = .error fault ∨ (∃ a, y = .ok a) ∧ z = .error fault := by
  rw [bind_eq_error_iff]
  constructor
  · rintro (h | ⟨a, ha, h⟩)
    · exact .inl h
    · rcases bind_eq_error_iff.mp h with hz | ⟨b, _, hb⟩
      · exact .inr ⟨⟨a, ha⟩, hz⟩
      · exact absurd hb (hk a b)
  · rintro (h | ⟨⟨a, ha⟩, hz⟩)
    · exact .inl h
    · exact .inr ⟨a, ha, bind_eq_error_iff.mpr (.inl hz)⟩

/-- A step succeeds for every item of a list when it does so for each of them. -/
theorem mapM_eq_ok_iff {bs : List β} :
    as.mapM f = .ok bs ↔ List.Forall₂ (fun a b => f a = .ok b) as bs := by
  induction as generalizing bs with
  | nil =>
    rw [List.mapM_nil, List.forall₂_nil_left_iff]
    exact ⟨fun h => (Except.ok.inj h).symm, fun h => congrArg _ h.symm⟩
  | cons a as ih =>
    rw [List.mapM_cons, bind_eq_ok_iff]
    constructor
    · rintro ⟨b, hb, h⟩
      obtain ⟨rest, hrest, h⟩ := bind_eq_ok_iff.mp h
      cases h
      exact .cons hb (ih.mp hrest)
    · rintro (_ | ⟨hb, hrest⟩)
      exact ⟨_, hb, bind_eq_ok_iff.mpr ⟨_, ih.mpr hrest, rfl⟩⟩

theorem mapM_congr {g : α → Except ε β} (h : ∀ a ∈ as, f a = g a) :
    as.mapM f = as.mapM g := by
  induction as with
  | nil => rfl
  | cons a as ih =>
    obtain ⟨ha, has⟩ := List.forall_mem_cons.mp h
    rw [List.mapM_cons, List.mapM_cons, ha, ih has]

theorem exists_mapM_eq_ok_iff :
    (∃ bs, as.mapM f = .ok bs) ↔ ∀ a ∈ as, ∃ b, f a = .ok b := by
  induction as with
  | nil => simp [pure, Except.pure]
  | cons a as ih =>
    rw [List.forall_mem_cons, ← ih]
    constructor
    · rintro ⟨bs, h⟩
      cases mapM_eq_ok_iff.mp h with
      | cons hb hrest => exact ⟨⟨_, hb⟩, _, mapM_eq_ok_iff.mpr hrest⟩
    · rintro ⟨⟨b, hb⟩, bs, h⟩
      exact ⟨b :: bs, mapM_eq_ok_iff.mpr (.cons hb (mapM_eq_ok_iff.mp h))⟩

/-- A step that fails for some item of a list fails first for one of them. -/
theorem mapM_eq_error_iff {fault : ε} :
    as.mapM f = .error fault ↔
      ∃ front a back, as = front ++ a :: back ∧ (∀ x ∈ front, ∃ b, f x = .ok b) ∧
        f a = .error fault := by
  induction as with
  | nil =>
    rw [List.mapM_nil]
    exact ⟨fun h => (by cases h), by simp⟩
  | cons a as ih =>
    rw [List.mapM_cons, bind_eq_error_iff]
    constructor
    · rintro (ha | ⟨b, hb, h⟩)
      · exact ⟨[], a, as, rfl, by simp, ha⟩
      · rcases bind_eq_error_iff.mp h with hrest | ⟨_, _, h⟩
        · obtain ⟨front, a', back, rfl, hfront, ha'⟩ := ih.mp hrest
          refine ⟨a :: front, a', back, rfl, ?_, ha'⟩
          rintro x (_ | ⟨_, hx⟩)
          · exact ⟨b, hb⟩
          · exact hfront x hx
        · cases h
    · rintro ⟨_ | ⟨c, front⟩, a', back, he, hfront, ha'⟩
      · cases he
        exact .inl ha'
      · cases he
        obtain ⟨b, hb⟩ := hfront a (by simp)
        have hrest : (front ++ a' :: back).mapM f = .error fault :=
          ih.mpr ⟨front, a', back, rfl, fun x hx => hfront x (by simp [hx]), ha'⟩
        exact .inr ⟨b, hb, bind_eq_error_iff.mpr (.inl hrest)⟩

/-! ## Related lists -/

variable {γ : Type} {R : α → β → Prop} {S : β → γ → Prop} {bs : List β}

theorem exists_of_mem_right {b : β} (h : List.Forall₂ R as bs) (hb : b ∈ bs) :
    ∃ a ∈ as, R a b := by
  induction h with
  | nil => cases hb
  | @cons a b' as bs hab _ ih =>
    rcases List.mem_cons.mp hb with rfl | hb
    · exact ⟨a, List.mem_cons_self, hab⟩
    · obtain ⟨a', ha', hr⟩ := ih hb
      exact ⟨a', List.mem_cons_of_mem _ ha', hr⟩

/-- An order of one list is that of the other, if it is so for what is related. -/
theorem pairwise_of_forall₂ {P : α → α → Prop} {Q : β → β → Prop} (h : List.Forall₂ R as bs)
    (hp : as.Pairwise P) (hq : ∀ {a a' b b'}, R a b → R a' b' → P a a' → Q b b') :
    bs.Pairwise Q := by
  induction h with
  | nil => exact .nil
  | cons hab hrest ih =>
    obtain ⟨hfirst, hp⟩ := List.pairwise_cons.mp hp
    refine .cons (fun b' hb' => ?_) (ih hp)
    obtain ⟨a', ha', hr⟩ := exists_of_mem_right hrest hb'
    exact hq hab hr (hfirst a' ha')

theorem forall₂_trans {cs : List γ} (h : List.Forall₂ R as bs) (h' : List.Forall₂ S bs cs) :
    List.Forall₂ (fun a c => ∃ b, R a b ∧ S b c) as cs := by
  induction h generalizing cs with
  | nil =>
    cases h'
    exact .nil
  | cons hab _ ih =>
    cases h' with
    | cons hbc hrest => exact .cons ⟨_, hab, hbc⟩ (ih hrest)

end DiceBot
