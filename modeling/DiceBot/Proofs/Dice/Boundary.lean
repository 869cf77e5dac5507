import DiceBot.Dice.Response
import DiceBot.Proofs.Dice.Trace

/-!
# Where rolls have no answer

A roll command is answered with its trace, with the reason for which it asks for too much, or with
the remark that it makes no sense. Three things escape this: a numeral of a dice term that is too
long to be read, a total whose numeral is too long to be written, and a total that has no double.

## Main definitions

* `Text.Escapes`: the commands and rolls for which there is no answer

## Main results

* `Text.exists_rolled_eq_error_iff`: the ways in which a fault escapes from rolling
* `exists_trace_eq_error_iff`: writing the trace lets no more escape than rolling does
-/

namespace DiceBot

/-- A command has no answer: its checks reach a numeral that is too long to be read, or its dice
fall so that a total is too long to be written, or so that all are written and evaluating comes
upon one that has no double. -/
inductive Text.Escapes (t : Text) (shaker : Shaker) (index : Nat) : Prop where
  | numeral : Plan.MeetsOversized t → Escapes t shaker index
  | total {plan : Plan} {r : Roll} : Plan.ofText t = .ok plan →
      r ∈ DiceTerm.rollAll shaker index plan.terms →
      tenTo maxNumeralDigits ≤ r.total.natAbs → Escapes t shaker index
  | double {plan : Plan} : Plan.ofText t = .ok plan →
      (∀ r ∈ DiceTerm.rollAll shaker index plan.terms,
        r.total.natAbs < tenTo maxNumeralDigits) →
      plan.tree.Overflows (Plan.totals (DiceTerm.rollAll shaker index plan.terms))
        (Plan.room - 1) → Escapes t shaker index

/-! ## Rolling -/

namespace Plan

variable {plan : Plan} {rolls : List Roll} {fault : Fault}

/-- The totals of some rolls are written unless one of them is too long. -/
theorem exists_mapM_writeInteger_eq_ok_iff :
    (∃ written, rolls.mapM (fun r => Text.writeInteger r.total) = .ok written) ↔
      ∀ r ∈ rolls, r.total.natAbs < tenTo maxNumeralDigits := by
  rw [exists_mapM_eq_ok_iff]
  exact forall₂_congr fun r _ => Text.exists_writeInteger_eq_ok_iff

theorem mapM_writeInteger_eq_error_iff :
    rolls.mapM (fun r => Text.writeInteger r.total) = .error fault ↔
      (∃ r ∈ rolls, tenTo maxNumeralDigits ≤ r.total.natAbs) ∧ fault = .numeralTooLong := by
  constructor
  · intro h
    obtain ⟨front, r, back, hsplit, _, hr⟩ := mapM_eq_error_iff.mp h
    obtain ⟨hle, hfault⟩ := Text.writeInteger_eq_error_iff.mp hr
    exact ⟨⟨r, by rw [hsplit]; simp, hle⟩, hfault⟩
  · rintro ⟨⟨r, hr, hle⟩, rfl⟩
    cases h : rolls.mapM (fun r => Text.writeInteger r.total) with
    | ok written =>
      have hlt := exists_mapM_writeInteger_eq_ok_iff.mp ⟨written, h⟩ r hr
      omega
    | error fault =>
      obtain ⟨_, _, _, _, _, hr⟩ := mapM_eq_error_iff.mp h
      rw [(Text.writeInteger_eq_error_iff.mp hr).2]

/-- Once the dice have fallen, a fault escapes from a total that is too long, or from one that has
no double. -/
theorem outcome_eq_error_iff (hf : fault.Escapes) :
    plan.outcome rolls = .error fault ↔
      (∃ r ∈ rolls, tenTo maxNumeralDigits ≤ r.total.natAbs) ∧ fault = .numeralTooLong ∨
        (∀ r ∈ rolls, r.total.natAbs < tenTo maxNumeralDigits) ∧
          plan.tree.Overflows (totals rolls) (room - 1) ∧ fault = .totalTooLarge := by
  rw [← mapM_writeInteger_eq_error_iff, ← exists_mapM_writeInteger_eq_ok_iff,
    ← Expr.finiteValue_eq_error_iff hf]
  refine bind_eq_error_iff.trans (or_congr_right ?_)
  rw [← exists_and_right]
  exact exists_congr fun written => and_congr_right fun _ => bind_pure_eq_error_iff

end Plan

namespace Text

variable {t : Text} {shaker : Shaker} {index : Nat}

/-- A fault escapes from rolling a command in exactly three ways. -/
theorem exists_rolled_eq_error_iff :
    (∃ fault : Fault, fault.Escapes ∧ (t.rolled shaker index).1 = .error fault) ↔
      t.Escapes shaker index := by
  constructor
  · rintro ⟨fault, hf, h⟩
    unfold rolled at h
    split at h
    · rename_i fault' hplan
      cases h
      exact .numeral ((Plan.ofText_eq_error_iff hf).mp hplan).1
    · rename_i plan hplan
      rcases (Plan.outcome_eq_error_iff hf).mp h with ⟨⟨r, hr, hle⟩, _⟩ | ⟨hlt, ho, _⟩
      · exact .total hplan hr hle
      · exact .double hplan hlt ho
  · intro h
    cases h with
    | numeral h =>
      have hf : Fault.numeralTooLong.Escapes := .inl rfl
      refine ⟨_, hf, ?_⟩
      rw [rolled, (Plan.ofText_eq_error_iff hf).mpr ⟨h, rfl⟩]
    | total hplan hr hle =>
      have hf : Fault.numeralTooLong.Escapes := .inl rfl
      refine ⟨_, hf, ?_⟩
      rw [rolled, hplan]
      exact (Plan.outcome_eq_error_iff hf).mpr (.inl ⟨⟨_, hr, hle⟩, rfl⟩)
    | double hplan hlt ho =>
      have hf : Fault.totalTooLarge.Escapes := .inr rfl
      refine ⟨_, hf, ?_⟩
      rw [rolled, hplan]
      exact (Plan.outcome_eq_error_iff hf).mpr (.inr ⟨hlt, ho, rfl⟩)

/-- The rolls of a command that has a result can be written. -/
theorem isWritable_of_rolled {o : Outcome} (h : (t.rolled shaker index).1 = .ok o) :
    ∀ r ∈ o.rolls, r.IsWritable := by
  obtain ⟨plan, written, hplan, hrolls, hw, -, -, -⟩ := Plan.exists_of_rolled h
  intro r hr
  exact ⟨Plan.values_of_mem_rollAll hplan (hrolls ▸ hr),
    Plan.exists_mapM_writeInteger_eq_ok_iff.mp ⟨written, hw⟩ r hr⟩

end Text

/-! ## Answering -/

/-- Every fault that does not escape has an answer. -/
theorem faultResponse_answer {t : Text} {fault : Fault} (h : ¬ fault.Escapes) :
    (faultResponse t fault).answer = .ok ("Err: " ++ Fault.tooManyDice.message) ∨
      (faultResponse t fault).answer = .ok notUnderstood := by
  cases fault with
  | tooManyDice => exact .inl rfl
  | numeralTooLong => exact absurd (.inl rfl) h
  | totalTooLarge => exact absurd (.inr rfl) h
  | _ => exact .inr rfl

theorem faultResponse_answer_eq_error {t : Text} {fault : Fault} (h : fault.Escapes) :
    (faultResponse t fault).answer = .error fault := by
  rcases h with rfl | rfl
  · rfl
  · rfl

theorem rollResponse_answer (t : Text) (shaker : Shaker) (index : Nat) :
    (rollResponse t shaker index).1.answer =
      match (t.rolled shaker index).1 >>= Outcome.trace with
      | .ok trace => .ok trace
      | .error fault => (faultResponse t fault).answer := by
  unfold rollResponse
  show (match (t.rolled shaker index).1 >>= Outcome.trace with
    | .ok trace => _
    | .error fault => _ : Response Text × Nat).1.answer = _
  cases (t.rolled shaker index).1 >>= Outcome.trace with
  | ok trace => rfl
  | error fault => rfl

theorem exists_trace_eq_error_iff {t : Text} {shaker : Shaker} {index : Nat} :
    (∃ fault : Fault, fault.Escapes ∧
      ((t.rolled shaker index).1 >>= Outcome.trace) = .error fault) ↔
        t.Escapes shaker index := by
  rw [← Text.exists_rolled_eq_error_iff]
  refine exists_congr fun fault => and_congr_right fun hf => ?_
  refine bind_eq_error_iff.trans (or_iff_left ?_)
  rintro ⟨o, ho, h⟩
  exact Outcome.not_escapes_of_trace (Text.isWritable_of_rolled ho) h hf

/-- **A roll is answered exactly if nothing escapes.** The answer is the trace of the outcome, the
reason for which the command asks for too much, or the remark that it makes no sense. -/
theorem rollResponse_answer_iff (t : Text) (shaker : Shaker) (index : Nat) :
    ((∃ answer, (rollResponse t shaker index).1.answer = .ok answer) ↔
      ¬ t.Escapes shaker index) ∧
    ∀ answer, (rollResponse t shaker index).1.answer = .ok answer →
      (∃ outcome, (t.rolled shaker index).1 = .ok outcome ∧ outcome.trace = .ok answer) ∨
        answer = "Err: " ++ Fault.tooManyDice.message ∨ answer = notUnderstood := by
  rw [rollResponse_answer, ← exists_trace_eq_error_iff]
  cases h : (t.rolled shaker index).1 >>= Outcome.trace with
  | ok trace =>
    refine ⟨iff_of_true ⟨trace, rfl⟩ (by simp), fun answer ha => .inl ?_⟩
    cases ha
    exact bind_eq_ok_iff.mp h
  | error fault =>
    by_cases hf : fault.Escapes
    · have hnone : ∀ answer, (faultResponse t fault).answer ≠ .ok answer := by
        intro answer
        rw [faultResponse_answer_eq_error hf]
        intro ha
        cases ha
      refine ⟨iff_of_false (fun ⟨answer, ha⟩ => hnone answer ha) ?_, fun answer ha => ?_⟩
      · exact not_not_intro ⟨fault, hf, rfl⟩
      · exact absurd ha (hnone answer)
    · have hsome := faultResponse_answer (t := t) hf
      refine ⟨iff_of_true ?_ ?_, fun answer ha => .inr ?_⟩
      · rcases hsome with ha | ha
        · exact ⟨_, ha⟩
        · exact ⟨_, ha⟩
      · rintro ⟨fault', hf', he⟩
        cases he
        exact hf hf'
      · exact hsome.imp (fun h => Except.ok.inj (ha.symm.trans h))
          fun h => Except.ok.inj (ha.symm.trans h)

/-- A count of 4301 digits escapes, although it asks for too much. -/
theorem rollResponse_unanswered_of_long_count :
    ¬ ∃ answer, (rollResponse (List.replicate 4301 (CodePoint.ofChar '1') ++ Text.ofString "d6")
      (.ofStream id) 0).1.answer = .ok answer := by
  have h : (rollResponse (List.replicate 4301 (CodePoint.ofChar '1') ++ Text.ofString "d6")
      (.ofStream id) 0).1.answer = .error .numeralTooLong := by
    decide +kernel
  rintro ⟨answer, ha⟩
  rw [h] at ha
  cases ha

/-- A die without a double, and behind it a sum that is too deep: there is room to walk over both, so
that the die falls and escapes before the depth is met. -/
example : (rollResponse ("d1" ++ List.replicate 400 (CodePoint.ofChar '0') ++ "+" ++
    List.replicate 600 (CodePoint.ofChar '-') ++ "(1" ++
      (List.replicate 400 (Text.ofString "+1")).flatten ++ ")")
        (.ofStream fun _ => 10 ^ 400 - 1) 0).1.answer = .error .totalTooLarge := by
  decide +kernel

end DiceBot
