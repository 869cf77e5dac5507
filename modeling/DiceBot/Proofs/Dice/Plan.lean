import DiceBot.Dice.Command
import DiceBot.Proofs.Dice.Term
import DiceBot.Proofs.Expr.Overflow
import DiceBot.Proofs.Token.Layout

/-!
# Checked commands

What the checks of a roll command establish, and which rolls belong to its dice terms: each roll
stands at the position of its term, no two terms stand at the same position, and so the total that
is looked up for a position is that of the roll of the term there.

## Main results

* `Plan.ofText_eq_ok_iff`: the commands that pass all checks
* `Plan.forall₂_readTerms`: each dice term has the text and the position of its token
* `Plan.forall₂_totals_rollAll`: the totals that are looked up are those of the rolls
-/

namespace DiceBot

/-! ## Positions -/

theorem Token.exists_dice_of_isDice {t : Token} (h : t.lexeme.isDice = true) :
    ∃ text, t = ⟨.dice text, t.position⟩ := by
  obtain ⟨lexeme, position⟩ := t
  cases lexeme with
  | dice text => exact ⟨text, rfl⟩
  | _ => cases h

/-- A dice token of some pieces is written with parts. -/
theorem exists_parts {ps : List Piece} (hp : ∀ p ∈ ps, p.IsProper) {place : Nat} {t : Token}
    (h : t ∈ (placed place ps).filter (·.lexeme.isDice)) :
    ∃ parts : Text.DiceParts, parts.IsProper ∧ t = ⟨.dice parts.text, t.position⟩ := by
  obtain ⟨hmem, hdice⟩ := List.mem_filter.mp h
  obtain ⟨text, he⟩ := Token.exists_dice_of_isDice hdice
  have hproper := hp _ (mem_of_mem_placed hmem)
  rw [he] at hproper
  obtain ⟨parts, hparts, rfl⟩ := hproper
  exact ⟨parts, hparts, he⟩

/-- The dice terms of proper pieces stand one behind another. -/
theorem pairwise_dice_placed {ps : List Piece} (hp : ∀ p ∈ ps, p.IsProper) (place : Nat) :
    ((placed place ps).filter (·.lexeme.isDice)).Pairwise fun t u => t.position < u.position :=
  (pairwise_position_placed hp place).filter _

/-! ## Dice terms and their rolls -/

theorem Token.map_fst_diceAmong (tokens : List Token) :
    (diceAmong tokens).map Prod.fst = tokens.filter (·.lexeme.isDice) := by
  induction tokens with
  | nil => rfl
  | cons t rest ih =>
    rw [diceAmong, List.filter_cons]
    split
    · rw [List.map_cons, ih]
    · exact ih

namespace DiceTerm

/-- Each term has a roll. -/
theorem forall₂_rollAll (shaker : Shaker) (index : Nat) (terms : List DiceTerm) :
    List.Forall₂ (fun term r => ∃ first, r = term.roll shaker first) terms
      (rollAll shaker index terms) := by
  induction terms generalizing index with
  | nil => exact .nil
  | cons term rest ih => exact .cons ⟨index, rfl⟩ (ih _)

/-- The dice that are kept have no negative total. -/
theorem total_nonneg (term : DiceTerm) (shaker : Shaker) (first : Nat) :
    0 ≤ (term.roll shaker first).total := by
  simp only [roll, result]
  generalize term.values _ = values
  induction values with
  | nil => exact Int.le_refl 0
  | cons v values ih =>
    rw [List.filter_cons]
    split
    · rename_i hv
      exact Int.add_nonneg (by simpa using hv) ih
    · exact ih

end DiceTerm

namespace Plan

/-- The commands that pass all checks. -/
theorem ofText_eq_ok_iff {t : Text} {plan : Plan} :
    ofText t = .ok plan ↔
      (command t).pieces = .ok plan.pieces ∧ parse (placed 0 plan.pieces) = .ok plan.tree ∧
        plan.tree.reach ≤ room ∧ readTerms (placed 0 plan.pieces) = .ok plan.terms := by
  obtain ⟨pieces, tree, terms⟩ := plan
  unfold ofText
  split
  · rename_i h
    simp [h]
  · rename_i ps hps
    rw [hps]
    constructor
    · intro h
      obtain ⟨e, he, h⟩ := bind_eq_ok_iff.mp h
      split at h
      · cases h
      rename_i hreach
      obtain ⟨ts, hts, h⟩ := bind_eq_ok_iff.mp h
      cases h
      exact ⟨rfl, he, not_lt.mp hreach, hts⟩
    · rintro ⟨h, he, hreach, hts⟩
      cases h
      refine bind_eq_ok_iff.mpr ⟨tree, he, ?_⟩
      rw [if_neg (not_lt.mpr hreach)]
      exact bind_eq_ok_iff.mpr ⟨terms, hts, rfl⟩

/-- Each dice term has the text and the position of its token. -/
theorem forall₂_readTerms {tokens : List Token} {terms : List DiceTerm}
    (h : readTerms tokens = .ok terms) :
    List.Forall₂ (fun t term => ∃ base suffix, DiceTerm.ofText t.text t.position = .ok base ∧
      term = { base with suffix }) (tokens.filter (·.lexeme.isDice)) terms := by
  rw [← Token.map_fst_diceAmong, List.forall₂_map_left_iff]
  refine (mapM_eq_ok_iff.mp h).imp ?_
  rintro ⟨t, following⟩ term hterm
  obtain ⟨base, hbase, he⟩ := bind_eq_ok_iff.mp hterm
  cases he
  exact ⟨base, _, hbase, rfl⟩

/-- Each roll stands at the position of its token. -/
theorem forall₂_place_rollAll {tokens : List Token} {terms : List DiceTerm}
    (h : readTerms tokens = .ok terms) (shaker : Shaker) (index : Nat) :
    List.Forall₂ (fun t r => r.place = (t.position : Int) ∧ 0 ≤ r.total)
      (tokens.filter (·.lexeme.isDice)) (DiceTerm.rollAll shaker index terms) := by
  refine (forall₂_trans (forall₂_readTerms h)
    (DiceTerm.forall₂_rollAll shaker index terms)).imp ?_
  rintro t _ ⟨_, ⟨base, suffix, hbase, rfl⟩, first, rfl⟩
  obtain ⟨parts, hparts⟩ := DiceTerm.ofText_eq_ok hbase
  obtain ⟨_, _, hposition, _⟩ := DiceTerm.ofParts_eq_ok hparts
  exact ⟨congrArg _ hposition, DiceTerm.total_nonneg _ shaker first⟩

/-- Among rolls at ascending positions each is found at its own. -/
theorem forall₂_totals {ts : List Token} {rolls : List Roll}
    (h : List.Forall₂ (fun t r => r.place = (t.position : Int) ∧ 0 ≤ r.total) ts rolls)
    (hp : ts.Pairwise fun t u => t.position < u.position) :
    List.Forall₂ (fun t r => totals rolls t.position = some r.total ∧ 0 ≤ r.total) ts rolls := by
  induction h with
  | nil => exact .nil
  | @cons t r ts rolls hr _ ih =>
    obtain ⟨hlt, hp⟩ := List.pairwise_cons.mp hp
    refine .cons ⟨by simp [totals, hr.1], hr.2⟩ ?_
    refine ((List.forall₂_and_left _ _).mpr ⟨hlt, ih hp⟩).imp ?_
    rintro t' r' ⟨hlt, ht', hnonneg⟩
    refine ⟨?_, hnonneg⟩
    have hne : ¬ r.place = (t'.position : Int) := by omega
    rw [totals, List.find?_cons_of_neg (by simpa using hne)]
    exact ht'

/-- The totals that are looked up are those of the rolls. -/
theorem forall₂_totals_rollAll {t : Text} {plan : Plan} (h : ofText t = .ok plan)
    (shaker : Shaker) (index : Nat) :
    List.Forall₂ (fun t r => totals (DiceTerm.rollAll shaker index plan.terms) t.position =
        some r.total ∧ 0 ≤ r.total) ((placed 0 plan.pieces).filter (·.lexeme.isDice))
      (DiceTerm.rollAll shaker index plan.terms) := by
  obtain ⟨hpieces, _, _, hterms⟩ := ofText_eq_ok_iff.mp h
  exact forall₂_totals (forall₂_place_rollAll hterms shaker index)
    (pairwise_dice_placed (Text.isProper_of_pieces hpieces) 0)

/-- The outcome of a command is put together from its plan, the rolls of its terms, and their
totals as they are written. -/
theorem exists_of_rolled {t : Text} {shaker : Shaker} {index : Nat} {o : Outcome}
    (h : (t.rolled shaker index).1 = .ok o) :
    ∃ plan written, ofText t = .ok plan ∧
      o.rolls = DiceTerm.rollAll shaker index plan.terms ∧
      o.rolls.mapM (fun r => Text.writeInteger r.total) = .ok written ∧
      plan.tree.finiteValue (totals o.rolls) (room - 1) = .ok o.total ∧
      o.text = plan.text ∧ o.flattened = flatten plan.pieces written := by
  unfold Text.rolled at h
  split at h
  · cases h
  rename_i plan hplan
  obtain ⟨written, hw, h⟩ := bind_eq_ok_iff.mp h
  obtain ⟨total, hvalue, h⟩ := bind_eq_ok_iff.mp h
  cases h
  exact ⟨plan, written, hplan, rfl, hw, hvalue, rfl, rfl⟩

/-! ## Numerals that are too long -/

/-- The dice terms are refused at the first one that is no good. -/
theorem readTerms_eq_error_iff {tokens : List Token} {fault : Fault} :
    readTerms tokens = .error fault ↔
      ∃ front t back, tokens.filter (·.lexeme.isDice) = front ++ t :: back ∧
        (∀ u ∈ front, ∃ term, DiceTerm.ofText u.text u.position = .ok term) ∧
        DiceTerm.ofText t.text t.position = .error fault := by
  rw [← Token.map_fst_diceAmong]
  refine mapM_eq_error_iff.trans ?_
  constructor
  · rintro ⟨front, ⟨t, following⟩, back, he, hfront, h⟩
    refine ⟨front.map Prod.fst, t, back.map Prod.fst, ?_, fun u hu => ?_,
      bind_pure_eq_error_iff.mp h⟩
    · rw [he, List.map_append, List.map_cons]
    · obtain ⟨a, ha, rfl⟩ := List.mem_map.mp hu
      exact exists_bind_pure_eq_ok_iff.mp (hfront a ha)
  · rintro ⟨front, t, back, he, hfront, h⟩
    obtain ⟨front, rest, hsplit, rfl, hrest⟩ := List.map_eq_append_iff.mp he
    obtain ⟨⟨t, following⟩, back, rfl, rfl, _⟩ := List.map_eq_cons_iff.mp hrest
    refine ⟨front, (t, following), back, hsplit, fun a ha => ?_, bind_pure_eq_error_iff.mpr h⟩
    exact exists_bind_pure_eq_ok_iff.mpr (hfront a.1 (List.mem_map_of_mem ha))

/-- The checks of a command reach a dice term with a numeral that is too long to be read. -/
inductive MeetsOversized (t : Text) : Prop where
  | intro {ps : List Piece} {tree : Expr} {front back : List Token} {parts : Text.DiceParts}
      {position : Nat} :
      (command t).pieces = .ok ps → parse (placed 0 ps) = .ok tree →
      tree.reach ≤ room →
      (placed 0 ps).filter (·.lexeme.isDice) = front ++ ⟨.dice parts.text, position⟩ :: back →
      (∀ u ∈ front, ∃ good : Text.DiceParts, good.IsProper ∧ good.Passes ∧
        u.lexeme = .dice good.text) →
      parts.IsProper → parts.IsOversized → MeetsOversized t

/-- The checks of a command let a fault escape exactly if they reach such a term. -/
theorem ofText_eq_error_iff {t : Text} {fault : Fault} (hf : fault.Escapes) :
    ofText t = .error fault ↔ MeetsOversized t ∧ fault = .numeralTooLong := by
  unfold ofText
  split
  · rename_i cause hcause
    constructor
    · intro h
      cases h
      exact absurd hf (Fault.not_escapes_malformed _)
    · rintro ⟨⟨hps, _⟩, _⟩
      rw [hcause] at hps
      cases hps
  rename_i ps hps
  have hproper := Text.isProper_of_pieces hps
  constructor
  · intro h
    rcases bind_eq_error_iff.mp h with h | ⟨tree, htree, h⟩
    · exact absurd hf (not_escapes_of_parse h)
    split at h
    · cases h
      exact absurd hf Fault.not_escapes_tooDeep
    rename_i hreach
    rcases bind_eq_error_iff.mp h with h | ⟨terms, _, h⟩
    swap
    · cases h
    obtain ⟨front, u, back, hsplit, hfront, hu⟩ := readTerms_eq_error_iff.mp h
    obtain ⟨parts, hparts, he⟩ := exists_parts hproper (t := u) (by rw [hsplit]; simp)
    rw [he] at hu hsplit
    obtain ⟨hbig, rfl⟩ :=
      (DiceTerm.ofParts_eq_error_iff hf).mp ((DiceTerm.ofText_text hparts _).symm.trans hu)
    refine ⟨.intro hps htree (not_lt.mp hreach) hsplit (fun v hv => ?_) hparts hbig, rfl⟩
    obtain ⟨good, hgood, hv'⟩ := exists_parts hproper (t := v) (by rw [hsplit]; simp [hv])
    obtain ⟨term, hterm⟩ := hfront v hv
    rw [hv'] at hterm
    have hpasses := DiceTerm.ofParts_eq_ok ((DiceTerm.ofText_text hgood _).symm.trans hterm)
    exact ⟨good, hgood, hpasses.1, congrArg Token.lexeme hv'⟩
  · rintro ⟨⟨hps', htree, hreach, hsplit, hfront, hparts, hbig⟩, rfl⟩
    cases hps.symm.trans hps'
    refine bind_eq_error_iff.mpr (.inr ⟨_, htree, ?_⟩)
    rw [if_neg (not_lt.mpr hreach)]
    refine bind_eq_error_iff.mpr (.inl (readTerms_eq_error_iff.mpr
      ⟨_, _, _, hsplit, fun u hu => ?_, ?_⟩))
    · obtain ⟨good, hgood, hpasses, he⟩ := hfront u hu
      rw [show u.text = good.text from congrArg Lexeme.text he, DiceTerm.ofText_text hgood]
      exact DiceTerm.exists_ofParts_eq_ok hpasses
    · exact (DiceTerm.ofText_text hparts _).trans
        ((DiceTerm.ofParts_eq_error_iff hf).mpr ⟨hbig, rfl⟩)

end Plan

end DiceBot
