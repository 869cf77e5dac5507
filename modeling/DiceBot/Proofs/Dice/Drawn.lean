import DiceBot.Proofs.Dice.Play
import DiceBot.Proofs.Dice.Trace

/-!
# Which dice fall

A command that passes its checks rolls the dice of all its terms, even if it has no value in the
end, and any other command rolls none. Of the dice that fall each belongs to one roll, the rolls
belong to the dice tokens of the text, and both stand in the order in which the dice fell.

## Main definitions

* `Text.Asks`: a text asks for dice terms
* `Fault.IsRefusal`: a text is no command, or asks for too many dice
* `Shaker.IsRecord`: dice that fell from a shaker, one after another

## Main results

* `Text.played_all_or_none`: all dice fall or none
* `Text.played_eq_ok`: every die is found in the roll of its own term
-/

namespace DiceBot

/-- A text is a command that asks for some dice terms: it is cut into tokens, these form an
expression that there is room to walk over, and the terms are those of its dice tokens. -/
structure Text.Asks (t : Text) (tokens : List Token) (terms : List DiceTerm) : Prop where
  tokens_eq : (Plan.command t).tokens = .ok tokens
  walked : ∃ tree, parse tokens = .ok tree ∧ tree.reach ≤ Plan.room
  read : List.Forall₂ (fun u term => DiceTerm.ofText u.text u.position = .ok term)
    (tokens.filter (·.lexeme.isDice)) terms

/-- The faults for which a text is refused: it is malformed, or asks for too many dice. -/
def Fault.IsRefusal : Fault → Prop
  | .malformed _ => True
  | .tooManyDice => True
  | _ => False

/-! ## Faults after the dice have fallen -/

namespace Expr

variable {total : Nat → Option Int} {fault : Fault}

theorem not_isRefusal_of_operands {x y : Except Fault Float}
    {k : Float → Float → Except Fault Float}
    (hx : x = .error fault → ¬ fault.IsRefusal) (hy : y = .error fault → ¬ fault.IsRefusal)
    (hk : ∀ a b, k a b = .error fault → ¬ fault.IsRefusal)
    (h : (x >>= fun a => y >>= k a) = .error fault) : ¬ fault.IsRefusal := by
  rcases bind_eq_error_iff.mp h with h | ⟨a, _, h⟩
  · exact hx h
  · rcases bind_eq_error_iff.mp h with h | ⟨b, _, h⟩
    · exact hy h
    · exact hk a b h

/-- Evaluating refuses nothing. -/
theorem not_isRefusal_of_value {room : Nat} {e : Expr} (h : e.value total room = .error fault) :
    ¬ fault.IsRefusal := by
  induction room generalizing e with
  | zero =>
    cases h
    exact id
  | succ room ih =>
    cases e with
    | number text position => cases h
    | dice text position =>
      rw [value] at h
      split at h
      · cases h
        exact id
      · obtain ⟨_, rfl⟩ := floatOfInteger_eq_error_iff.mp h
        exact id
    | signed s e =>
      cases s with
      | plus => exact ih h
      | minus => exact ih (bind_pure_eq_error_iff.mp h)
    | product s l r =>
      cases s
      case times => exact not_isRefusal_of_operands ih ih (fun _ _ h => by cases h) h
      · refine not_isRefusal_of_operands ih ih (fun x y h => ?_) h
        unfold quotient at h
        split at h
        · cases h
          exact id
        · cases h
    | sum s l r =>
      cases s with
      | plus => exact not_isRefusal_of_operands ih ih (fun _ _ h => by cases h) h
      | minus => exact not_isRefusal_of_operands ih ih (fun _ _ h => by cases h) h
    | group e => exact ih h

end Expr

/-- A command whose dice have fallen is not refused any more. -/
theorem Plan.not_isRefusal_of_outcome {plan : Plan} {rolls : List Roll} {fault : Fault}
    (h : plan.outcome rolls = .error fault) : ¬ fault.IsRefusal := by
  rcases bind_eq_error_iff.mp h with h | ⟨written, _, h⟩
  · obtain ⟨_, r, _, _, _, hr⟩ := mapM_eq_error_iff.mp h
    obtain ⟨_, rfl⟩ := Text.writeInteger_eq_error_iff.mp hr
    exact id
  · rcases bind_eq_error_iff.mp (bind_pure_eq_error_iff.mp h) with h | ⟨x, _, h⟩
    · exact Expr.not_isRefusal_of_value h
    · split at h
      · cases h
      · cases h
        exact id

/-! ## The terms of a command -/

/-- The terms of a plan are some terms, each with the arithmetic that stands behind it. -/
def DiceTerm.ArePlanned (terms planned : List DiceTerm) : Prop :=
  List.Forall₂ (fun term p => ∃ suffix, p = { term with suffix }) terms planned

namespace DiceTerm.ArePlanned

variable {terms planned : List DiceTerm}

theorem map_eq {α : Type} {f : DiceTerm → α} (h : ArePlanned terms planned)
    (hf : ∀ term suffix, f { term with suffix } = f term) : planned.map f = terms.map f := by
  induction h with
  | nil => rfl
  | cons hterm _ ih =>
    obtain ⟨suffix, rfl⟩ := hterm
    rw [List.map_cons, List.map_cons, hf, ih]

/-- The dice of a term do not depend on what stands behind it. -/
theorem drawnAll_eq (h : ArePlanned terms planned) (rolls : List Roll) :
    drawnAll planned rolls = drawnAll terms rolls := by
  induction h generalizing rolls with
  | nil => rfl
  | cons hterm _ ih =>
    obtain ⟨suffix, rfl⟩ := hterm
    cases rolls with
    | nil => rfl
    | cons r rolls => exact congrArg (drawn _ r ++ ·) (ih rolls)

end DiceTerm.ArePlanned

namespace Text

variable {t : Text} {tokens : List Token} {terms : List DiceTerm} {plan : Plan}

/-- The terms that are read for a plan are those of the dice tokens. -/
theorem arePlanned_of_readTerms {planned : List DiceTerm}
    (hread : List.Forall₂ (fun u term => DiceTerm.ofText u.text u.position = .ok term)
      (tokens.filter (·.lexeme.isDice)) terms)
    (h : Plan.readTerms tokens = .ok planned) : DiceTerm.ArePlanned terms planned := by
  refine (forall₂_trans hread.flip (Plan.forall₂_readTerms h)).imp ?_
  rintro term _ ⟨u, hterm, base, suffix, hbase, rfl⟩
  cases hterm.symm.trans hbase
  exact ⟨suffix, rfl⟩

/-- A command that passes its checks asks for the terms of its plan. -/
theorem exists_asks_of_ofText (h : Plan.ofText t = .ok plan) :
    ∃ terms, t.Asks (placed 0 plan.pieces) terms ∧ DiceTerm.ArePlanned terms plan.terms := by
  obtain ⟨hpieces, htree, hreach, hterms⟩ := Plan.ofText_eq_ok_iff.mp h
  have hread : ∀ u ∈ (placed 0 plan.pieces).filter (·.lexeme.isDice),
      ∃ term, DiceTerm.ofText u.text u.position = .ok term := by
    intro u hu
    obtain ⟨_, _, base, _, hbase, _⟩ :=
      exists_of_mem_right (Plan.forall₂_readTerms hterms).flip hu
    exact ⟨base, hbase⟩
  obtain ⟨terms, hok⟩ := exists_mapM_eq_ok_iff.mpr hread
  have hforall := mapM_eq_ok_iff.mp hok
  refine ⟨terms, ⟨?_, ⟨plan.tree, htree, hreach⟩, hforall⟩,
    arePlanned_of_readTerms hforall hterms⟩
  rw [tokens, hpieces]
  rfl

/-- A text that asks for terms passes its checks. -/
theorem Asks.exists_ofText (h : t.Asks tokens terms) :
    ∃ plan, Plan.ofText t = .ok plan ∧ DiceTerm.ArePlanned terms plan.terms := by
  obtain ⟨htokens, ⟨tree, htree, hreach⟩, hread⟩ := h
  obtain ⟨pieces, hpieces, rfl⟩ := exists_pieces_of_tokens htokens
  cases hterms : Plan.readTerms (placed 0 pieces) with
  | error fault =>
    obtain ⟨_, u, _, hsplit, _, hu⟩ := Plan.readTerms_eq_error_iff.mp hterms
    obtain ⟨_, _, hok⟩ := exists_of_mem_right hread.flip (b := u) (by rw [hsplit]; simp)
    cases hu.symm.trans hok
  | ok planned =>
    exact ⟨⟨pieces, tree, planned⟩, Plan.ofText_eq_ok_iff.mpr ⟨hpieces, htree, hreach, hterms⟩,
      arePlanned_of_readTerms hread hterms⟩

end Text

/-! ## All dice or none -/

/-- **All dice fall or none.** The dice of a command fall as its result tells. If its text is cut
into tokens that form an expression that there is room to walk over, and all its dice terms are
read, then as many dice fall as the terms ask for together, whether the command has a value or not,
and also if it is too deep to be evaluated; and in any other case no die falls, in particular if the
text is malformed or asks for too many dice. -/
theorem Text.played_all_or_none (t : Text) (shaker : Shaker) (index : Nat) :
    (t.played shaker index).1 = (t.rolled shaker index).1 ∧
    (t.played shaker index).2.length = (t.rolled shaker index).2 ∧
    (∀ tokens terms, t.Asks tokens terms →
      (t.played shaker index).2.length = (terms.map DiceTerm.count).sum) ∧
    ((¬ ∃ tokens terms, t.Asks tokens terms) → (t.played shaker index).2 = []) ∧
    ∀ fault, (t.rolled shaker index).1 = .error fault → fault.IsRefusal →
      (t.played shaker index).2 = [] := by
  refine ⟨played_fst .., length_played .., ?_⟩
  rw [played_eq, rolled]
  cases hplan : Plan.ofText t with
  | error fault =>
    refine ⟨fun tokens terms h => ?_, fun _ => rfl, fun _ _ _ => rfl⟩
    obtain ⟨plan, hok, _⟩ := h.exists_ofText
    cases hplan.symm.trans hok
  | ok plan =>
    refine ⟨fun tokens terms h => ?_, fun h => ?_, fun fault hfault hrefusal => ?_⟩
    · obtain ⟨plan', hok, hplanned⟩ := h.exists_ofText
      cases hplan.symm.trans hok
      have hcounts := hplanned.map_eq (f := DiceTerm.count) fun _ _ => rfl
      exact (DiceTerm.length_drawnAll plan.terms index).trans (congrArg List.sum hcounts)
    · obtain ⟨terms, hasks, _⟩ := exists_asks_of_ofText hplan
      exact absurd ⟨_, terms, hasks⟩ h
    · exact absurd hrefusal (Plan.not_isRefusal_of_outcome hfault)

/-- A sum of one die and of many ones. -/
def Text.longSum (ones : Nat) : Text :=
  "d6" ++ (List.replicate ones (Text.ofString "+1")).flatten

/-- The die of a long sum behind many signs falls before the sum proves too deep to be evaluated. -/
example : (Text.rolled (List.replicate 300 (CodePoint.ofChar '-') ++ "(" ++ Text.longSum 700 ++ ")")
    (.ofStream id) 0).map (fun outcome => outcome.map Outcome.rolls) id = (.error .tooDeep, 1) := by
  decide +kernel

/-- There is no room to walk over a long sum, so that its die does not fall although its only term is
good. -/
theorem Text.no_die_of_long_sum :
    ∃ tokens tree, (Plan.command (longSum 1200)).tokens = .ok tokens ∧
      parse tokens = .ok tree ∧
      List.Forall₂ (fun u term => DiceTerm.ofText u.text u.position = .ok term)
        (tokens.filter (·.lexeme.isDice)) [⟨1, 6, "d6", 0, none, []⟩] ∧
      ((longSum 1200).played (.ofStream id) 0).2 = [] := by
  have hgood : ((Plan.command (longSum 1200)).tokens >>= fun tokens =>
      .ok ((parse tokens).toOption.isSome && tokens.filter (·.lexeme.isDice) = [⟨.dice "d6", 0⟩])) =
        .ok true := by
    decide +kernel
  have hnone : ((longSum 1200).rolled (.ofStream id) 0).2 = 0 := by
    decide +kernel
  have hterm : DiceTerm.ofText "d6" 0 = .ok ⟨1, 6, "d6", 0, none, []⟩ := by
    decide +kernel
  have hlength := length_played (longSum 1200) (.ofStream id) 0
  obtain ⟨tokens, htokens, hgood⟩ := bind_eq_ok_iff.mp hgood
  obtain ⟨hparse, hdice⟩ := Bool.and_eq_true_iff.mp (Except.ok.inj hgood)
  cases htree : parse tokens with
  | error fault =>
    rw [htree] at hparse
    cases hparse
  | ok tree =>
    refine ⟨tokens, tree, htokens, htree, ?_, List.length_eq_zero_iff.mp (hlength.trans hnone)⟩
    rw [of_decide_eq_true hdice]
    exact .cons hterm .nil

/-! ## Every die in its place -/

namespace Shaker

/-- Dice are the record of what fell from a shaker, if the first has a given number in the
sequence of rolls. -/
def IsRecord (shaker : Shaker) (index : Nat) (fallen : List Draw) : Prop :=
  ∀ k d, fallen[k]? = some d → d.face = shaker.face (index + k) d.sides

variable {shaker : Shaker} {index : Nat}

theorem IsRecord.append {front back : List Draw} (hf : shaker.IsRecord index front)
    (hb : shaker.IsRecord (index + front.length) back) :
    shaker.IsRecord index (front ++ back) := by
  intro k d hd
  by_cases hk : k < front.length
  · rw [List.getElem?_append_left hk] at hd
    exact hf k d hd
  · rw [List.getElem?_append_right (not_lt.mp hk)] at hd
    rw [hb _ d hd]
    exact congrArg (shaker.face · d.sides) (by omega)

theorem isRecord_faces (count sides : Nat) :
    shaker.IsRecord index ((shaker.faces index count sides).map (⟨sides, ·⟩)) := by
  intro k d hd
  rw [faces, List.map_map, List.getElem?_map] at hd
  obtain ⟨i, hi, rfl⟩ := Option.map_eq_some_iff.mp hd
  obtain ⟨_, rfl⟩ := List.getElem?_eq_some_iff.mp hi
  rw [List.getElem_range]
  rfl

/-- The dice of several terms are the record of their rolls. -/
theorem isRecord_drawnAll (terms : List DiceTerm) (first : Nat) :
    shaker.IsRecord first (DiceTerm.drawnAll terms (DiceTerm.rollAll shaker first terms)) := by
  induction terms generalizing first with
  | nil => exact fun k d hd => by cases hd
  | cons term rest ih =>
    have hterm : shaker.IsRecord first (term.drawn (term.roll shaker first)) := by
      rw [DiceTerm.drawn_roll]
      exact isRecord_faces _ _
    have hlength : (term.drawn (term.roll shaker first)).length = term.count := by
      rw [DiceTerm.drawn, List.length_map, DiceTerm.length_values_roll]
    exact hterm.append (hlength ▸ ih (first + term.count))

end Shaker

namespace Text.Asks

variable {t : Text} {tokens : List Token} {terms : List DiceTerm} {rolls : List Roll}

theorem sides_pos (h : t.Asks tokens terms) : ∀ term ∈ terms, 0 < term.sides := by
  intro term hterm
  obtain ⟨_, _, hok⟩ := exists_of_mem_right h.read hterm
  obtain ⟨_, hparts⟩ := DiceTerm.ofText_eq_ok hok
  obtain ⟨hpasses, _, _, _, hsides⟩ := DiceTerm.ofParts_eq_ok hparts
  exact Nat.pos_of_ne_zero (hsides ▸ hpasses.sides_ne)

end Text.Asks

/-- **Every die is found in the roll of its own term.** The rolls of a command are those of the
dice tokens of its text, in the order in which they stand there. Each holds as many dice as its
term asks for, and none of them lies beyond the sides of the term. The dice, discarded or not, are
those that fell from the shaker, in the order of their fall, each with the sides of its own
term. -/
theorem Text.played_eq_ok {t : Text} {shaker : Shaker} {index : Nat} {outcome : Outcome}
    (h : (t.rolled shaker index).1 = .ok outcome) :
    ∃ tokens terms fallen, t.Asks tokens terms ∧
      t.played shaker index = (.ok outcome, fallen) ∧
      List.Forall₂ (fun u r => r.place = (u.position : Int) ∧ r.text = u.text)
        (tokens.filter (·.lexeme.isDice)) outcome.rolls ∧
      (outcome.rolls.Pairwise fun r s => r.place < s.place) ∧
      List.Forall₂ (fun term r => r.values.length = term.count ∧
        ∀ v ∈ r.values, 1 ≤ v.natAbs ∧ v.natAbs ≤ term.sides) terms outcome.rolls ∧
      fallen = DiceTerm.drawnAll terms outcome.rolls ∧
      fallen.map Draw.face = outcome.rolls.flatMap (fun r => r.values.map Int.natAbs) ∧
      shaker.IsRecord index fallen := by
  unfold rolled at h
  split at h
  · cases h
  rename_i plan hplan
  obtain ⟨hpieces, _, _, hterms⟩ := Plan.ofText_eq_ok_iff.mp hplan
  obtain ⟨terms, hasks, hplanned⟩ := exists_asks_of_ofText hplan
  have hrolls : outcome.rolls = DiceTerm.rollAll shaker index plan.terms := by
    obtain ⟨written, _, h⟩ := bind_eq_ok_iff.mp h
    obtain ⟨total, _, h⟩ := bind_eq_ok_iff.mp h
    cases h
    rfl
  have hforall := forall₂_trans hplanned (DiceTerm.forall₂_rollAll shaker index plan.terms)
  rw [← hrolls] at hforall
  refine ⟨_, terms, DiceTerm.drawnAll terms outcome.rolls, hasks, ?_, ?_, ?_, ?_, rfl, ?_, ?_⟩
  · rw [played_eq, hplan]
    show (plan.outcome _, DiceTerm.drawnAll _ _) = _
    rw [show plan.outcome _ = _ from h, hrolls, hplanned.drawnAll_eq]
  · refine (forall₂_trans hasks.read hforall).imp ?_
    rintro u _ ⟨term, hok, _, ⟨suffix, rfl⟩, first, rfl⟩
    obtain ⟨_, hparts⟩ := DiceTerm.ofText_eq_ok hok
    obtain ⟨_, htext, hposition, _⟩ := DiceTerm.ofParts_eq_ok hparts
    exact ⟨congrArg _ hposition, htext⟩
  · rw [hrolls]
    exact Plan.pairwise_place_rollAll hterms
      (pairwise_dice_placed (isProper_of_pieces hpieces) 0) shaker index
  · refine ((List.forall₂_and_left _ _).mpr ⟨hasks.sides_pos, hforall⟩).imp ?_
    rintro term _ ⟨hpos, _, ⟨suffix, rfl⟩, first, rfl⟩
    exact ⟨DiceTerm.length_values_roll _ first,
      fun v hv => Shaker.mem_faces hpos (DiceTerm.natAbs_mem_of_mem_values hv)⟩
  · exact DiceTerm.map_face_drawnAll hforall
  · rw [hrolls, ← hplanned.drawnAll_eq]
    exact Shaker.isRecord_drawnAll plan.terms index

theorem Text.played_of_command :
    ∃ outcome, (Text.rolled "(2d20+5)*2 - d6" (.ofStream id) 0).1 = .ok outcome ∧
      outcome.rolls.map Roll.values = [[1, 2], [3]] ∧
      (Text.played "(2d20+5)*2 - d6" (.ofStream id) 0).2.map Draw.face = [1, 2, 3] := by
  have hvalues : ((Text.rolled "(2d20+5)*2 - d6" (.ofStream id) 0).1 >>= fun outcome =>
      .ok (outcome.rolls.map Roll.values)) = .ok [[1, 2], [3]] := by
    decide +kernel
  obtain ⟨outcome, h, hvalues⟩ := bind_eq_ok_iff.mp hvalues
  have hvalues : outcome.rolls.map Roll.values = [[1, 2], [3]] := Except.ok.inj hvalues
  obtain ⟨_, _, fallen, _, hplayed, _, _, _, _, hface, _⟩ := played_eq_ok h
  refine ⟨outcome, h, hvalues, ?_⟩
  rw [hplayed, hface, ← List.flatMap_map (g := List.map Int.natAbs), hvalues]
  rfl

end DiceBot
