import DiceBot.Dice.Trace
import DiceBot.Proofs.Dice.Plan

/-!
# Traces of rolls

A trace writes the dice of every roll once more, and evaluates what stands behind a term. The dice
are no larger than the sides, whose numeral was read, so that they can be written as well; and what
stands behind a term holds no dice. So a trace may have no value for a subtotal, but once the
totals are written no fault escapes from it.

## Main definitions

* `Roll.IsWritable`: the dice and the total of a roll have numerals

## Main results

* `Plan.values_of_mem_rollAll`: the dice that a command rolls have numerals
* `Outcome.not_escapes_of_trace`: a trace lets no fault escape
-/

namespace DiceBot

/-- The dice of a roll and its total have numerals that are not too long. -/
structure Roll.IsWritable (r : Roll) : Prop where
  values : ∀ v ∈ r.values, v.natAbs < tenTo maxNumeralDigits
  total : r.total.natAbs < tenTo maxNumeralDigits

/-! ## Dice and sides -/

namespace DiceTerm

/-- Each value is a face, or a face discarded. -/
theorem natAbs_mem_of_mem_values {term : DiceTerm} {faces : List Nat} {v : Int}
    (h : v ∈ term.values faces) : v.natAbs ∈ faces := by
  unfold values at h
  split at h
  · obtain ⟨face, hface, rfl⟩ := List.mem_map.mp h
    exact hface
  · obtain ⟨⟨face, i⟩, hface, rfl⟩ := List.mem_map.mp h
    have hmem := List.mem_of_getElem? (List.mk_mem_zipIdx_iff_getElem?.mp hface)
    show (if _ then -(face : Int) else face).natAbs ∈ faces
    split
    · rwa [Int.natAbs_neg]
    · exact hmem

theorem natAbs_le_of_mem_values {term : DiceTerm} (hs : 0 < term.sides) {shaker : Shaker}
    {first : Nat} {v : Int} (h : v ∈ (term.roll shaker first).values) :
    v.natAbs ≤ term.sides :=
  (Shaker.mem_faces hs (natAbs_mem_of_mem_values h)).2

end DiceTerm

namespace Plan

/-- The sides of a term that passed its checks have a numeral. -/
theorem sides_of_mem_readTerms {tokens : List Token} {terms : List DiceTerm}
    (h : readTerms tokens = .ok terms) {term : DiceTerm} (hterm : term ∈ terms) :
    0 < term.sides ∧ term.sides < tenTo maxNumeralDigits := by
  obtain ⟨t, _, base, suffix, hbase, rfl⟩ := exists_of_mem_right (forall₂_readTerms h) hterm
  obtain ⟨parts, hparts⟩ := DiceTerm.ofText_eq_ok hbase
  obtain ⟨hpasses, _, _, _, hsides⟩ := DiceTerm.ofParts_eq_ok hparts
  have hlt := Text.digitsValue_lt_tenTo hpasses.sides_length
  rw [← hsides] at hlt
  exact ⟨Nat.pos_of_ne_zero (hsides ▸ hpasses.sides_ne), hlt⟩

/-- The dice that a command rolls have numerals. -/
theorem values_of_mem_rollAll {t : Text} {plan : Plan} (h : ofText t = .ok plan)
    {shaker : Shaker} {index : Nat} {r : Roll}
    (hr : r ∈ DiceTerm.rollAll shaker index plan.terms) :
    ∀ v ∈ r.values, v.natAbs < tenTo maxNumeralDigits := by
  obtain ⟨_, _, _, hterms⟩ := ofText_eq_ok_iff.mp h
  obtain ⟨term, hterm, first, rfl⟩ :=
    exists_of_mem_right (DiceTerm.forall₂_rollAll shaker index plan.terms) hr
  obtain ⟨hpos, hlt⟩ := sides_of_mem_readTerms hterms hterm
  intro v hv
  exact (DiceTerm.natAbs_le_of_mem_values hpos hv).trans_lt hlt

end Plan

/-! ## What is written -/

theorem Roll.not_escapes_of_line {r : Roll} (hr : r.IsWritable) {fault : Fault}
    (h : r.line = .error fault) : ¬ fault.Escapes := by
  intro hf
  rcases bind_eq_error_iff.mp h with h | ⟨dice, _, h⟩
  · obtain ⟨front, v, back, hsplit, _, hv⟩ := mapM_eq_error_iff.mp h
    have hlt := hr.values v (by rw [hsplit]; simp)
    unfold dieText at hv
    split at hv
    · obtain ⟨hle, _⟩ := Text.writeInteger_eq_error_iff.mp (bind_pure_eq_error_iff.mp hv)
      omega
    · obtain ⟨hle, _⟩ := Text.writeInteger_eq_error_iff.mp hv
      omega
  · rcases bind_eq_error_iff.mp h with h | ⟨subtotal, _, h⟩
    · rcases bind_eq_error_iff.mp h with h | ⟨total, _, h⟩
      · obtain ⟨hle, _⟩ := Text.writeInteger_eq_error_iff.mp h
        have := hr.total
        omega
      · exact Text.not_escapes_of_valueWithin h hf
    · cases h

/-- A trace lets no fault escape. -/
theorem Outcome.not_escapes_of_trace {o : Outcome} (ho : ∀ r ∈ o.rolls, r.IsWritable)
    {fault : Fault} (h : o.trace = .error fault) : ¬ fault.Escapes := by
  rcases bind_eq_error_iff.mp h with h | ⟨lines, _, h⟩
  · obtain ⟨front, r, back, hsplit, _, hr⟩ := mapM_eq_error_iff.mp h
    have hmem : r ∈ o.ordered := by
      rw [hsplit]
      simp
    exact Roll.not_escapes_of_line (ho r (List.mem_mergeSort.mp hmem)) hr
  · cases h

end DiceBot
