import DiceBot.Dice.Response
import DiceBot.Proofs.Expr.Leaves
import DiceBot.Proofs.Expr.Part

/-!
# Texts without a value

A text has no value because it is no expression, because it holds dice, because it divides by
zero, or because its value is not finite. There are no other causes but the nesting. Values inside
the expression may be infinite or no numbers: only the last one is looked at.

## Main definitions

* `Expr.ownValue`: the value of an expression by itself, finite or not
* `Expr.DividesByZero`: some divisor in the expression is a zero of either sign
* `Text.IsTooDeep`: the text nests more deeply than there is room for
* `Text.IsValueless`: the causes for which a text has no value

## Main results

* `Expr.ownValue_eq_error_iff`: without dice nothing but a zero divisor is in the way of a value
* `Text.evaluated_value`: what comes of a text
* `Text.value_fails_iff`: it has no value exactly for one of the causes
-/

namespace DiceBot

namespace Expr

/-! ## The value of an expression by itself -/

/-- The value of an expression in which nothing has been rolled, finite or not. Every path is
followed to its end. -/
def ownValue (e : Expr) : Except Fault Float :=
  e.value (fun _ => none) e.height

variable {e l r : Expr}

theorem value_eq_ownValue {room : Nat} (h : e.height ≤ room) :
    e.value (fun _ => none) room = e.ownValue :=
  value_eq_of_height_le h le_rfl

theorem ownValue_sum (s : Sign) :
    ∃ k : Float → Float → Float,
      (sum s l r).ownValue = l.ownValue >>= fun x => r.ownValue >>= fun y => pure (k x y) := by
  have hl := value_eq_ownValue (Nat.le_max_left l.height r.height)
  have hr := value_eq_ownValue (Nat.le_max_right l.height r.height)
  rw [← hl, ← hr]
  cases s with
  | plus => exact ⟨(· + ·), rfl⟩
  | minus => exact ⟨(· - ·), rfl⟩

theorem ownValue_times :
    (product .times l r).ownValue =
      l.ownValue >>= fun x => r.ownValue >>= fun y => pure (x * y) := by
  rw [← value_eq_ownValue (Nat.le_max_left l.height r.height),
    ← value_eq_ownValue (Nat.le_max_right l.height r.height)]
  rfl

theorem ownValue_over :
    (product .over l r).ownValue = l.ownValue >>= fun x => r.ownValue >>= quotient x := by
  rw [← value_eq_ownValue (Nat.le_max_left l.height r.height),
    ← value_eq_ownValue (Nat.le_max_right l.height r.height)]
  rfl

/-! ## Zero divisors -/

/-- An expression has a value, and that is a zero of either sign. -/
def IsZero (e : Expr) : Prop :=
  ∃ z, e.ownValue = .ok z ∧ (z == 0.0) = true

/-- A divisor in the expression is zero, whatever becomes of what is divided by it. -/
def DividesByZero (e : Expr) : Prop :=
  ∃ dividend divisor, Part (.product .over dividend divisor) e ∧ divisor.IsZero

theorem dividesByZero_signed_iff {s : Sign} :
    (signed s e).DividesByZero ↔ e.DividesByZero := by
  constructor
  · rintro ⟨a, b, hpart, hzero⟩
    cases hpart with
    | signed _ hpart => exact ⟨a, b, hpart, hzero⟩
  · rintro ⟨a, b, hpart, hzero⟩
    exact ⟨a, b, .signed s hpart, hzero⟩

theorem dividesByZero_group_iff : (group e).DividesByZero ↔ e.DividesByZero := by
  constructor
  · rintro ⟨a, b, hpart, hzero⟩
    cases hpart with
    | group hpart => exact ⟨a, b, hpart, hzero⟩
  · rintro ⟨a, b, hpart, hzero⟩
    exact ⟨a, b, .group hpart, hzero⟩

theorem dividesByZero_sum_iff {s : Sign} :
    (sum s l r).DividesByZero ↔ l.DividesByZero ∨ r.DividesByZero := by
  constructor
  · rintro ⟨a, b, hpart, hzero⟩
    cases hpart with
    | sumLeft _ hpart => exact .inl ⟨a, b, hpart, hzero⟩
    | sumRight _ hpart => exact .inr ⟨a, b, hpart, hzero⟩
  · rintro (⟨a, b, hpart, hzero⟩ | ⟨a, b, hpart, hzero⟩)
    · exact ⟨a, b, .sumLeft s hpart, hzero⟩
    · exact ⟨a, b, .sumRight s hpart, hzero⟩

theorem dividesByZero_product_iff {s : Scaling} :
    (product s l r).DividesByZero ↔
      (s = .over ∧ r.IsZero) ∨ l.DividesByZero ∨ r.DividesByZero := by
  constructor
  · rintro ⟨a, b, hpart, hzero⟩
    cases hpart with
    | self => exact .inl ⟨rfl, hzero⟩
    | productLeft _ hpart => exact .inr (.inl ⟨a, b, hpart, hzero⟩)
    | productRight _ hpart => exact .inr (.inr ⟨a, b, hpart, hzero⟩)
  · rintro (⟨rfl, hzero⟩ | ⟨a, b, hpart, hzero⟩ | ⟨a, b, hpart, hzero⟩)
    · exact ⟨l, r, .self, hzero⟩
    · exact ⟨a, b, .productLeft s hpart, hzero⟩
    · exact ⟨a, b, .productRight s hpart, hzero⟩

theorem quotient_eq_error_iff {x y : Float} {fault : Fault} :
    quotient x y = .error fault ↔ (y == 0.0) = true ∧ fault = .unevaluable .divisionByZero := by
  unfold quotient
  split
  · rename_i hzero
    constructor
    · intro h
      cases h
      exact ⟨hzero, rfl⟩
    · rintro ⟨-, rfl⟩
      rfl
  · rename_i hzero
    constructor
    · intro h
      cases h
    · rintro ⟨hy, -⟩
      exact absurd hy hzero

/-- The other operators refuse nothing. -/
theorem pure_eq_error_iff {x : Float} {fault : Fault} :
    (pure x : Except Fault Float) = .error fault ↔
      False ∧ fault = .unevaluable .divisionByZero := by
  constructor
  · intro h
    cases h
  · rintro ⟨h, -⟩
    exact h.elim

/-- An operator whose operands fail only for zero divisors fails for one in an operand, or by
itself, if its right operand is a number that it refuses. -/
theorem bind_ownValue_eq_error_iff {k : Float → Float → Except Fault Float}
    {refused : Float → Prop} {fault : Fault}
    (hl : ∀ {fault}, l.ownValue = .error fault ↔
      l.DividesByZero ∧ fault = .unevaluable .divisionByZero)
    (hr : ∀ {fault}, r.ownValue = .error fault ↔
      r.DividesByZero ∧ fault = .unevaluable .divisionByZero)
    (hk : ∀ {x y fault}, k x y = .error fault ↔
      refused y ∧ fault = .unevaluable .divisionByZero) :
    (l.ownValue >>= fun x => r.ownValue >>= k x) = .error fault ↔
      ((∃ y, r.ownValue = .ok y ∧ refused y) ∨ l.DividesByZero ∨ r.DividesByZero) ∧
        fault = .unevaluable .divisionByZero := by
  cases hleft : l.ownValue with
  | error first =>
    obtain ⟨hzero, rfl⟩ := hl.mp hleft
    simp [bind, Except.bind, hzero, eq_comm]
  | ok x =>
    have hnone : ¬ l.DividesByZero := fun h => by cases hleft.symm.trans (hl.mpr ⟨h, rfl⟩)
    cases hright : r.ownValue with
    | error second =>
      obtain ⟨hzero, rfl⟩ := hr.mp hright
      simp [bind, Except.bind, hzero, eq_comm]
    | ok y =>
      have hnone' : ¬ r.DividesByZero := fun h => by cases hright.symm.trans (hr.mpr ⟨h, rfl⟩)
      simp [bind, Except.bind, hk, hnone, hnone']

/-- Without dice nothing but a zero divisor is in the way of a value. -/
theorem ownValue_eq_error_iff {fault : Fault} (h : e.leaves = []) :
    e.ownValue = .error fault ↔ e.DividesByZero ∧ fault = .unevaluable .divisionByZero := by
  induction e generalizing fault with
  | number text position =>
    constructor
    · intro h
      cases h
    · rintro ⟨⟨_, _, hpart, _⟩, _⟩
      cases hpart
  | dice text position => cases h
  | signed s e ih =>
    rw [dividesByZero_signed_iff, ← ih h]
    cases s with
    | plus => rfl
    | minus => exact bind_pure_eq_error_iff
  | sum s l r ihl ihr =>
    obtain ⟨hl, hr⟩ := List.append_eq_nil_iff.mp h
    obtain ⟨f, hsum⟩ := ownValue_sum s
    rw [dividesByZero_sum_iff, hsum, bind_ownValue_eq_error_iff (k := fun x y => pure (f x y))
      (ihl hl) (ihr hr) pure_eq_error_iff]
    simp
  | product s l r ihl ihr =>
    obtain ⟨hl, hr⟩ := List.append_eq_nil_iff.mp h
    rw [dividesByZero_product_iff]
    match s with
    | .times =>
      rw [ownValue_times, bind_ownValue_eq_error_iff (k := fun x y => pure (x * y)) (ihl hl)
        (ihr hr) pure_eq_error_iff]
      simp
    | .over =>
      rw [ownValue_over,
        bind_ownValue_eq_error_iff (k := quotient) (ihl hl) (ihr hr) quotient_eq_error_iff]
      simp [IsZero]
  | group e ih =>
    rw [dividesByZero_group_iff, ← ih h]
    rfl

theorem not_dividesByZero_of_ownValue {x : Float} (h : e.leaves = []) (hx : e.ownValue = .ok x) :
    ¬ e.DividesByZero := fun hzero => by
  cases hx.symm.trans ((ownValue_eq_error_iff h).mpr ⟨hzero, rfl⟩)

/-- Within some room a zero divisor or the room itself may be in the way of a value. -/
theorem value_eq_error {room : Nat} {fault : Fault} (h : e.leaves = [])
    (hfault : e.value (fun _ => none) room = .error fault) :
    fault = .tooDeep ∨ e.DividesByZero ∧ fault = .unevaluable .divisionByZero := by
  induction e generalizing room with
  | number text position =>
    cases room with
    | zero =>
      cases hfault
      exact .inl rfl
    | succ room => cases hfault
  | dice text position => cases h
  | signed s e ih =>
    rw [dividesByZero_signed_iff]
    cases room with
    | zero =>
      cases hfault
      exact .inl rfl
    | succ room =>
      cases s with
      | plus => exact ih h hfault
      | minus => exact ih h (bind_pure_eq_error_iff.mp hfault)
  | sum s l r ihl ihr =>
    rw [dividesByZero_sum_iff]
    obtain ⟨hl, hr⟩ := List.append_eq_nil_iff.mp h
    cases room with
    | zero =>
      cases hfault
      exact .inl rfl
    | succ room =>
      have hoperand : l.value (fun _ => none) room = .error fault ∨
          r.value (fun _ => none) room = .error fault := by
        cases s <;>
        · rcases bind_eq_error_iff.mp hfault with hleft | ⟨x, -, hright⟩
          · exact .inl hleft
          · exact .inr (bind_pure_eq_error_iff.mp hright)
      rcases hoperand with hleft | hright
      · exact (ihl hl hleft).imp_right (And.imp_left .inl)
      · exact (ihr hr hright).imp_right (And.imp_left .inr)
  | product s l r ihl ihr =>
    rw [dividesByZero_product_iff]
    obtain ⟨hl, hr⟩ := List.append_eq_nil_iff.mp h
    cases room with
    | zero =>
      cases hfault
      exact .inl rfl
    | succ room =>
      have hoperand : l.value (fun _ => none) room = .error fault ∨
          r.value (fun _ => none) room = .error fault ∨
          (s = .over ∧ r.IsZero) ∧ fault = .unevaluable .divisionByZero := by
        match s, hfault with
        | .times, hfault =>
          rcases bind_eq_error_iff.mp hfault with hleft | ⟨x, -, hright⟩
          · exact .inl hleft
          · exact .inr (.inl (bind_pure_eq_error_iff.mp hright))
        | .over, hfault =>
          rcases bind_eq_error_iff.mp hfault with hleft | ⟨x, -, hbehind⟩
          · exact .inl hleft
          rcases bind_eq_error_iff.mp hbehind with hright | ⟨y, hy, hquotient⟩
          · exact .inr (.inl hright)
          · obtain ⟨hzero, hdivision⟩ := quotient_eq_error_iff.mp hquotient
            rw [value_eq_ownValue (height_le_of_value hy)] at hy
            exact .inr (.inr ⟨⟨rfl, y, hy, hzero⟩, hdivision⟩)
      rcases hoperand with hleft | hright | ⟨hzero, hdivision⟩
      · exact (ihl hl hleft).imp_right (And.imp_left fun h => .inr (.inl h))
      · exact (ihr hr hright).imp_right (And.imp_left fun h => .inr (.inr h))
      · exact .inr ⟨.inl hzero, hdivision⟩
  | group e ih =>
    rw [dividesByZero_group_iff]
    cases room with
    | zero =>
      cases hfault
      exact .inl rfl
    | succ room => exact ih h hfault

theorem height_of_value_eq_tooDeep {room : Nat} (h : e.leaves = [])
    (hfault : e.value (fun _ => none) room = .error .tooDeep) : room < e.height := by
  by_contra hheight
  rw [value_eq_ownValue (Nat.not_lt.mp hheight)] at hfault
  obtain ⟨-, hfault⟩ := (ownValue_eq_error_iff h).mp hfault
  cases hfault

end Expr

namespace Text

/-! ## What comes of a text -/

open DiceBot.Expr (callRoom)

/-- The text nests more deeply than there is room for: in the signs and parentheses of its tokens,
or in its tree. -/
def IsTooDeep (t : Text) : Prop :=
  (∃ tokens, t.tokens = .ok tokens ∧ Reader.depthLimit ≤ Token.weights tokens) ∨
    ∃ e, t.expr = .ok e ∧ ¬ e.IsWithin callRoom

/-- The causes for which a text has no value. -/
inductive IsValueless (t : Text) : Prop where
  | unread {cause : Malformed} : t.expr = .error (.malformed cause) → IsValueless t
  | dice {e : Expr} : t.expr = .ok e → e.leaves ≠ [] → IsValueless t
  | zeroDivisor {e : Expr} : t.expr = .ok e → e.DividesByZero → IsValueless t
  | notFinite {e : Expr} {x : Float} : t.expr = .ok e → e.ownValue = .ok x →
      x.isFinite = false → IsValueless t

/-- What comes of a text that is evaluated. -/
inductive Evaluated (t : Text) : Except Fault Float → Prop where
  | unread {cause : Malformed} : t.expr = .error (.malformed cause) →
      Evaluated t (.error (.unevaluable (.unreadable t cause)))
  | deep : t.IsTooDeep → Evaluated t (.error .tooDeep)
  | dice {e : Expr} : t.expr = .ok e → e.leaves ≠ [] →
      Evaluated t (.error (.unevaluable (.holdsDice t)))
  | zeroDivisor {e : Expr} : t.expr = .ok e → e.DividesByZero →
      Evaluated t (.error (.unevaluable .divisionByZero))
  | notFinite {e : Expr} {x : Float} : t.expr = .ok e → e.ownValue = .ok x →
      x.isFinite = false → Evaluated t (.error (.unevaluable .notFinite))
  | finite {e : Expr} {x : Float} : t.expr = .ok e → e.IsWithin callRoom → e.leaves = [] →
      e.ownValue = .ok x → x.isFinite = true → Evaluated t (.ok x)

variable {t : Text}

theorem expr_eq_error {fault : Fault} (h : t.expr = .error fault) :
    (∃ cause, fault = .malformed cause) ∨ (fault = .tooDeep ∧ t.IsTooDeep) := by
  unfold expr at h
  split at h
  · cases h
    exact .inl ⟨_, rfl⟩
  · rename_i tokens htokens
    rcases parse_eq_error h with hcause | ⟨rfl, hweights⟩
    · exact .inl hcause
    · exact .inr ⟨rfl, .inl ⟨tokens, htokens, hweights⟩⟩

theorem evaluated_unrolledValue {e : Expr} (he : t.expr = .ok e)
    (hreach : e.reach ≤ callRoom - 2) (hleaves : e.leaves = []) :
    t.Evaluated (e.unrolledValue (callRoom - 1)) := by
  cases hvalue : e.value (fun _ => none) (callRoom - 1) with
  | error fault =>
    rw [Expr.unrolledValue, Expr.finiteValue, hvalue]
    rcases Expr.value_eq_error hleaves hvalue with rfl | ⟨hzero, rfl⟩
    · have hdeep := Expr.height_of_value_eq_tooDeep hleaves hvalue
      exact .deep (.inr ⟨e, he, fun hwithin => Nat.not_lt.mpr hwithin.height hdeep⟩)
    · exact .zeroDivisor he hzero
  | ok x =>
    rw [Expr.unrolledValue, Expr.finiteValue, hvalue]
    have hheight := Expr.height_le_of_value hvalue
    rw [Expr.value_eq_ownValue hheight] at hvalue
    show t.Evaluated (if x.isFinite then return x else throw (.unevaluable .notFinite))
    split
    · rename_i hfinite
      exact .finite he ⟨hreach, hheight⟩ hleaves hvalue hfinite
    · rename_i hfinite
      exact .notFinite he hvalue (Bool.eq_false_iff.mpr hfinite)

/-- What comes of a text. -/
theorem evaluated_value (t : Text) : t.Evaluated t.value := by
  unfold value valueWithin
  split
  · rename_i he
    exact .unread he
  · rename_i fault hcause he
    rcases expr_eq_error he with ⟨cause, rfl⟩ | ⟨rfl, hdeep⟩
    · exact absurd rfl (hcause cause)
    · exact .deep hdeep
  · rename_i e he
    have hsearched := e.searched_holdsDice (callRoom - 2)
    generalize e.holdsDice (callRoom - 2) = found at hsearched ⊢
    cases hsearched with
    | free hreach hleaves => exact evaluated_unrolledValue he hreach hleaves
    | dice hleaves => exact .dice he hleaves
    | deep hdeep =>
      exact .deep (.inr ⟨e, he, fun hwithin => Nat.not_lt.mpr hwithin.reach hdeep⟩)

theorem Evaluated.isValueless {cause : Unevaluable}
    (h : t.Evaluated (.error (.unevaluable cause))) : t.IsValueless := by
  cases h with
  | unread he => exact .unread he
  | dice he hleaves => exact .dice he hleaves
  | zeroDivisor he hzero => exact .zeroDivisor he hzero
  | notFinite he hown hfinite => exact .notFinite he hown hfinite

/-- A finite value rules out every cause for which there is none. -/
theorem Evaluated.not_isValueless {x : Float} (h : t.Evaluated (.ok x)) : ¬ t.IsValueless := by
  cases h with
  | finite he _ hleaves hown hfinite =>
    intro hnone
    cases hnone with
    | unread he' => cases he.symm.trans he'
    | dice he' hleaves' =>
      cases he.symm.trans he'
      exact hleaves' hleaves
    | zeroDivisor he' hzero =>
      cases he.symm.trans he'
      exact Expr.not_dividesByZero_of_ownValue hleaves hown hzero
    | notFinite he' hown' hfinite' =>
      cases he.symm.trans he'
      cases hown.symm.trans hown'
      cases hfinite.symm.trans hfinite'

theorem value_eq_ok {e : Expr} {x : Float} (he : t.expr = .ok e) (hwithin : e.IsWithin callRoom)
    (hleaves : e.leaves = []) (hown : e.ownValue = .ok x) (hfinite : x.isFinite = true) :
    t.value = .ok x := by
  have hvalue : e.unrolledValue (callRoom - 1) = .ok x := by
    rw [Expr.unrolledValue, Expr.finiteValue, Expr.value_eq_ownValue hwithin.height, hown]
    exact if_pos hfinite
  rw [value, valueWithin_eq he hleaves, if_pos hwithin.reach]
  exact hvalue

/-- Evaluating a text gives a finite number, or complains that it has no value, unless the text
nests too deeply. It complains exactly if the text is no expression, or holds dice, or divides by
a zero of either sign, wherever that is, or has a value that is infinite or no number. What the
parts are worth does not matter otherwise, and the chat gets an answer or none at all. -/
theorem value_fails_iff (t : Text) :
    ((∃ x, t.value = .ok x ∧ x.isFinite = true) ∨
      (∃ cause, t.value = .error (.unevaluable cause)) ∨
        t.value = .error .tooDeep ∧ t.IsTooDeep) ∧
    (t.value ≠ .error .tooDeep →
      ((∃ cause, t.value = .error (.unevaluable cause)) ↔ t.IsValueless)) ∧
    (∀ x, t.value = .ok x ↔ ∃ e, t.expr = .ok e ∧ e.IsWithin callRoom ∧ e.leaves = [] ∧
      e.ownValue = .ok x ∧ x.isFinite = true) ∧
    ∃ answer, (arithmeticResponse t).answer = .ok answer ∧
      (answer = none ↔ ∀ x, t.value ≠ .ok x) := by
  have hevaluated := t.evaluated_value
  refine ⟨?_, ?_, ?_, ?_⟩
  · generalize t.value = outcome at hevaluated ⊢
    cases hevaluated with
    | unread | dice | zeroDivisor | notFinite => exact .inr (.inl ⟨_, rfl⟩)
    | deep hdeep => exact .inr (.inr ⟨rfl, hdeep⟩)
    | finite _ _ _ _ hfinite => exact .inl ⟨_, rfl, hfinite⟩
  · intro hshallow
    refine ⟨fun ⟨cause, h⟩ => (h ▸ hevaluated).isValueless, fun hnone => ?_⟩
    generalize t.value = outcome at hevaluated hshallow ⊢
    cases hevaluated with
    | unread | dice | zeroDivisor | notFinite => exact ⟨_, rfl⟩
    | deep => exact absurd rfl hshallow
    | finite he hwithin hleaves hown hfinite =>
      exact absurd hnone (Evaluated.finite he hwithin hleaves hown hfinite).not_isValueless
  · refine fun x => ⟨fun h => ?_, ?_⟩
    · rw [h] at hevaluated
      cases hevaluated with
      | finite he hwithin hleaves hown hfinite => exact ⟨_, he, hwithin, hleaves, hown, hfinite⟩
    · rintro ⟨e, he, hwithin, hleaves, hown, hfinite⟩
      exact value_eq_ok he hwithin hleaves hown hfinite
  · unfold arithmeticResponse
    generalize t.value = outcome at hevaluated ⊢
    cases hevaluated with
    | unread | dice | zeroDivisor | notFinite | deep =>
      exact ⟨none, rfl, fun _ _ h => (by cases h), fun _ => rfl⟩
    | finite => exact ⟨some _, rfl, fun h => (by cases h), fun h => absurd rfl (h _)⟩

/-- One divided by an infinite part is a zero, and no fault. -/
example : (value (ofString "1/" ++ natural (10 ^ 400))).toOption.any (· == 0.0) = true := by
  decide +kernel

end Text

end DiceBot
