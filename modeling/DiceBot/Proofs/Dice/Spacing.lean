import DiceBot.Proofs.Dice.Play
import DiceBot.Proofs.Expr.Moved

/-!
# Blanks between tokens

A roll command does make use of the places of its tokens: a dice term remembers where it stands,
rolls are looked up by their places, and what stands behind a term belongs to it only without a
gap. None of this reaches the dice or the value. Two texts with the same lexemes ask for the same
dice in the same order, and come to the same value or to faults of the same kind, however many
blanks stand around the lexemes of the one and of the other.

## Main definitions

* `DiceTerm.AsksSame`, `Roll.ShowsSame`, `Outcome.ShowsSame`: terms, rolls and outcomes that differ
  in their places and in what stands behind them
* `Plan.IsMoved`: the plan of a command whose tokens have been moved

## Main results

* `Plan.ofText_moved`: the plans of texts with the same lexemes
* `Plan.outcome_moved`: their outcomes
* `Text.played_of_lexemes_eq`: blanks change nothing
-/

namespace DiceBot

/-- A term asks for the same dice as another one: at most it stands elsewhere, or before other
arithmetic. -/
def DiceTerm.AsksSame (term term' : DiceTerm) : Prop :=
  ∃ position suffix, term' = { term with position, suffix }

/-- A roll shows the same dice as another one. -/
structure Roll.ShowsSame (r r' : Roll) : Prop where
  text : r'.text = r.text
  values : r'.values = r.values
  total : r'.total = r.total
  criticalSuccess : r'.criticalSuccess = r.criticalSuccess
  criticalFailure : r'.criticalFailure = r.criticalFailure

/-- An outcome shows the same dice as another one, roll by roll, and has the same value. -/
structure Outcome.ShowsSame (o o' : Outcome) : Prop where
  rolls : List.Forall₂ Roll.ShowsSame o.rolls o'.rolls
  total : o'.total = o.total

/-- The plan of a command whose tokens have been moved. -/
structure Plan.IsMoved (f : Nat → Nat) (p p' : Plan) : Prop where
  tokens : placed 0 p'.pieces = (placed 0 p.pieces).map (Token.moved f)
  tree : p'.tree = p.tree.moved f
  terms : List.Forall₂ DiceTerm.AsksSame p.terms p'.terms

variable {f : Nat → Nat}

/-! ## Dice terms -/

namespace DiceTerm

/-- The place of a term plays no part in its checks. -/
theorem ofParts_place (parts : Text.DiceParts) (text : Text) (position position' : Nat) :
    Agree AsksSame (ofParts parts text position) (ofParts parts text position') := by
  rw [ofParts_eq, ofParts_eq]
  apply Agree.rfl.bind
  rintro count _ rfl
  split
  · exact .error rfl
  apply Agree.rfl.bind
  rintro sides _ rfl
  split
  · exact .error rfl
  apply Agree.rfl.bind
  rintro keep _ rfl
  exact .ok ⟨position', [], rfl⟩

theorem ofText_place (text : Text) (position position' : Nat) :
    Agree AsksSame (ofText text position) (ofText text position') := by
  unfold ofText
  split
  · rename_i parts rest _
    split
    · exact ofParts_place parts text position position'
    · exact .error rfl
  · exact .error rfl

/-- Terms that ask for the same dice roll the same dice. -/
theorem rollAll_of_asksSame {terms terms' : List DiceTerm}
    (h : List.Forall₂ AsksSame terms terms') (shaker : Shaker) (index : Nat) :
    List.Forall₂ Roll.ShowsSame (rollAll shaker index terms) (rollAll shaker index terms') := by
  induction h generalizing index with
  | nil => exact .nil
  | @cons term term' terms terms' hterm _ ih =>
    obtain ⟨position, suffix, rfl⟩ := hterm
    exact .cons ⟨rfl, rfl, rfl, rfl, rfl⟩ (ih (index + term.count))

theorem drawnAll_of_asksSame {terms terms' : List DiceTerm} {rolls rolls' : List Roll}
    (h : List.Forall₂ AsksSame terms terms') (hrolls : List.Forall₂ Roll.ShowsSame rolls rolls') :
    drawnAll terms' rolls' = drawnAll terms rolls := by
  induction h generalizing rolls rolls' with
  | nil => rfl
  | @cons term term' terms terms' hterm _ ih =>
    obtain ⟨position, suffix, rfl⟩ := hterm
    cases hrolls with
    | nil => rfl
    | @cons r r' rolls rolls' hr hrolls =>
      have hdrawn : drawn { term with position, suffix } r' = drawn term r := by
        unfold drawn
        rw [hr.values]
      rw [drawnAll, List.zipWith_cons_cons, List.flatten_cons, hdrawn]
      exact congrArg (drawn term r ++ ·) (ih hrolls)

end DiceTerm

namespace Token

theorem diceAmong_moved (tokens : List Token) :
    diceAmong (tokens.map (moved f)) =
      (diceAmong tokens).map fun (t, following) => (t.moved f, following.map (moved f)) := by
  induction tokens with
  | nil => rfl
  | cons t rest ih =>
    rw [List.map_cons, diceAmong, diceAmong]
    by_cases hdice : t.lexeme.isDice = true
    · rw [if_pos hdice, if_pos (show (t.moved f).lexeme.isDice = true from hdice), ih]
      rfl
    · rw [if_neg hdice, if_neg (show ¬ (t.moved f).lexeme.isDice = true from hdice), ih]

theorem filter_isDice_moved (tokens : List Token) :
    (tokens.map (moved f)).filter (·.lexeme.isDice) =
      (tokens.filter (·.lexeme.isDice)).map (moved f) :=
  List.filter_map

end Token

/-! ## Plans -/

namespace Plan

/-- Neither the place of a term nor what stands behind it plays a part in the checks. -/
theorem readTerms_moved (tokens : List Token) :
    Agree (List.Forall₂ DiceTerm.AsksSame) (readTerms tokens)
      (readTerms (tokens.map (Token.moved f))) := by
  unfold readTerms
  rw [Token.diceAmong_moved]
  apply Agree.mapM
  rw [List.forall₂_map_right_iff, List.forall₂_same]
  rintro ⟨t, following⟩ _
  apply (DiceTerm.ofText_place t.text t.position (f t.position)).bind
  rintro term _ ⟨position, suffix, rfl⟩
  exact .ok ⟨position, _, rfl⟩

/-- No expression begins with an exclamation mark, so that none is taken off. -/
theorem command_of_pieces {t : Text} {pieces : List Piece} (h : t.pieces = .ok pieces) :
    command t = t := by
  unfold command
  cases hdrop : t.dropStart? "!" with
  | none => rfl
  | some rest =>
    have hmem : CodePoint.ofChar '!' ∈ t := by
      rw [Text.dropStart?_eq_some hdrop]
      exact List.mem_cons_self
    exact absurd hmem (Text.notMem_of_pieces h (by decide))

variable {t t' : Text} {pieces pieces' : List Piece} {p p' : Plan}

/-- The plans of texts whose tokens differ in their places agree. -/
theorem ofText_moved (h : t.pieces = .ok pieces) (h' : t'.pieces = .ok pieces')
    (htokens : placed 0 pieces' = (placed 0 pieces).map (Token.moved f)) :
    Agree (IsMoved f) (ofText t) (ofText t') := by
  rw [← command_of_pieces h] at h
  rw [← command_of_pieces h'] at h'
  rw [ofText_of_pieces h, ofText_of_pieces h', htokens]
  apply (parse_moved f _).bind
  rintro tree _ rfl
  have hwalk : Agree (fun _ _ => True) (tree.diceTerms room) ((tree.moved f).diceTerms room) := by
    rw [Expr.diceTerms_eq, Expr.diceTerms_eq, Expr.reach_moved]
    split
    · exact .ok trivial
    · exact .error rfl
  apply hwalk.bind
  rintro _ _ _
  apply (readTerms_moved _).bind
  intro terms terms' hterms
  exact .ok ⟨htokens, rfl, hterms⟩

/-- Each dice term of the tree finds the same total as before it was moved. -/
theorem totals_moved (h : ofText t = .ok p) (h' : ofText t' = .ok p') (hmoved : p.IsMoved f p')
    (shaker : Shaker) (index : Nat) :
    ∀ leaf ∈ p.tree.leaves,
      totals (DiceTerm.rollAll shaker index p'.terms) (f leaf.2) =
        totals (DiceTerm.rollAll shaker index p.terms) leaf.2 := by
  have hrolls := DiceTerm.rollAll_of_asksSame hmoved.terms shaker index
  have htotals := forall₂_totals_rollAll h shaker index
  have htotals' := forall₂_totals_rollAll h' shaker index
  rw [hmoved.tokens, Token.filter_isDice_moved, List.forall₂_map_left_iff] at htotals'
  -- token by token: its total, its roll, the roll elsewhere, and the total there
  have htokens : List.Forall₂ (fun u v : Token =>
      totals (DiceTerm.rollAll shaker index p'.terms) (f v.position) =
        totals (DiceTerm.rollAll shaker index p.terms) u.position)
      ((placed 0 p.pieces).filter (·.lexeme.isDice))
      ((placed 0 p.pieces).filter (·.lexeme.isDice)) := by
    refine (forall₂_trans (forall₂_trans htotals hrolls) htotals'.flip).imp ?_
    rintro u v ⟨r', ⟨r, ⟨hr, _⟩, hsame⟩, hr', _⟩
    rw [hr, ← hsame.total]
    exact hr'
  obtain ⟨_, htree, _, _⟩ := ofText_eq_ok_iff.mp h
  intro leaf hleaf
  rw [(parse_sound htree).2.leaves_eq] at hleaf
  obtain ⟨u, hu, rfl⟩ := List.mem_map.mp hleaf
  exact List.forall₂_same.mp htokens u hu

/-- The outcomes of plans that differ in their places agree. -/
theorem outcome_moved (h : ofText t = .ok p) (h' : ofText t' = .ok p') (hmoved : p.IsMoved f p')
    (shaker : Shaker) (index : Nat) :
    Agree Outcome.ShowsSame (p.outcome (DiceTerm.rollAll shaker index p.terms))
      (p'.outcome (DiceTerm.rollAll shaker index p'.terms)) := by
  have hrolls := DiceTerm.rollAll_of_asksSame hmoved.terms shaker index
  have htotals := totals_moved h h' hmoved shaker index
  unfold outcome
  have hwritten : Agree (List.Forall₂ Eq)
      ((DiceTerm.rollAll shaker index p.terms).mapM fun r => Text.writeInteger r.total)
      ((DiceTerm.rollAll shaker index p'.terms).mapM fun r => Text.writeInteger r.total) := by
    refine Agree.mapM (hrolls.imp ?_)
    intro r r' hr
    rw [hr.total]
    exact Agree.rfl
  have hvalue : p'.tree.finiteValue (totals (DiceTerm.rollAll shaker index p'.terms)) (room - 1) =
      p.tree.finiteValue (totals (DiceTerm.rollAll shaker index p.terms)) (room - 1) := by
    unfold Expr.finiteValue
    rw [hmoved.tree, Expr.value_moved, Expr.value_congr htotals]
  apply hwritten.bind
  rintro written written' _
  rw [hvalue]
  apply Agree.rfl.bind
  rintro total _ rfl
  exact .ok ⟨hrolls, rfl⟩

end Plan

namespace Text

variable {t t' : Text} {tokens tokens' : List Token}

/-- The values of texts without dice agree as well. -/
theorem value_moved (h : t.tokens = .ok tokens)
    (h' : t'.tokens = .ok (tokens.map (Token.moved f))) : Agree Eq t.value t'.value := by
  have hparse := parse_moved f tokens
  unfold value valueWithin expr
  rw [h, h']
  dsimp only
  generalize parse tokens = x at hparse ⊢
  generalize parse (tokens.map (Token.moved f)) = y at hparse ⊢
  cases hparse with
  | @error fault fault' hkind =>
    cases fault <;> cases fault' <;> first | exact .error rfl | cases hkind
  | @ok e _ he =>
    subst he
    show Agree Eq (e.holdsDice _ >>= fun holds => if holds then _ else e.unrolledValue _)
      ((e.moved f).holdsDice _ >>= fun holds => if holds then _ else (e.moved f).unrolledValue _)
    rw [Expr.holdsDice_moved, Expr.unrolledValue_moved]
    apply Agree.rfl.bind
    rintro holds _ rfl
    split
    · exact .error rfl
    · exact Agree.rfl

/-- **Blanks change nothing.** Let two texts have the same lexemes, whatever blanks stand around
them. On the same shaker they come to the same value, and to the same dice roll by roll, or to
faults of the same kind, and the same dice have fallen by then. The same holds of their values as
expressions without dice. -/
theorem played_of_lexemes_eq (h : t.tokens = .ok tokens) (h' : t'.tokens = .ok tokens')
    (hlexemes : tokens'.map Token.lexeme = tokens.map Token.lexeme) (shaker : Shaker)
    (index : Nat) :
    Agree Outcome.ShowsSame (t.played shaker index).1 (t'.played shaker index).1 ∧
      (t'.played shaker index).2 = (t.played shaker index).2 ∧
      Agree Eq t.value t'.value := by
  obtain ⟨pieces, hpieces, rfl⟩ := exists_pieces_of_tokens h
  obtain ⟨pieces', hpieces', rfl⟩ := exists_pieces_of_tokens h'
  obtain ⟨f, hmoved⟩ :=
    Token.exists_moved (pairwise_position_placed (isProper_of_pieces hpieces) 0) hlexemes
  have hplans := Plan.ofText_moved hpieces hpieces' hmoved
  rw [and_left_comm, ← and_assoc]
  refine ⟨?_, value_moved h (hmoved ▸ h')⟩
  rw [played_eq, played_eq]
  generalize hplan : Plan.ofText t = x at hplans ⊢
  generalize hplan' : Plan.ofText t' = y at hplans ⊢
  cases hplans with
  | error hkind => exact ⟨rfl, .error hkind⟩
  | ok hplans =>
    refine ⟨?_, Plan.outcome_moved hplan hplan' hplans shaker index⟩
    exact DiceTerm.drawnAll_of_asksSame hplans.terms
      (DiceTerm.rollAll_of_asksSame hplans.terms shaker index)

theorem played_of_blanks_around_plus :
    Text.tokens "2d20k1+3" =
        .ok [⟨.dice "2d20k1", 0⟩, ⟨.sign .plus, 6⟩, ⟨.number "3", 7⟩] ∧
      Text.tokens " 2d20k1 +  3" =
        .ok [⟨.dice "2d20k1", 1⟩, ⟨.sign .plus, 8⟩, ⟨.number "3", 11⟩] ∧
      Agree Outcome.ShowsSame (played "2d20k1+3" (.ofStream id) 0).1
        (played " 2d20k1 +  3" (.ofStream id) 0).1 ∧
      (played " 2d20k1 +  3" (.ofStream id) 0).2 = (played "2d20k1+3" (.ofStream id) 0).2 ∧
      Agree Eq (value "2d20k1+3") (value " 2d20k1 +  3") := by
  have h : Text.tokens "2d20k1+3" =
      .ok [⟨.dice "2d20k1", 0⟩, ⟨.sign .plus, 6⟩, ⟨.number "3", 7⟩] := by
    decide +kernel
  have h' : Text.tokens " 2d20k1 +  3" =
      .ok [⟨.dice "2d20k1", 1⟩, ⟨.sign .plus, 8⟩, ⟨.number "3", 11⟩] := by
    decide +kernel
  exact ⟨h, h', played_of_lexemes_eq h h' rfl (.ofStream id) 0⟩

end Text

end DiceBot
