import DiceBot.Dice.Trace
import DiceBot.Proofs.Dice.Plan
import DiceBot.Proofs.Expr.Leaves

/-!
# Dice that fall one by one

A roll command carried out step by step, with a record of the dice that have fallen. The tree of
the command is walked for its dice terms, each of these is checked, and only then the dice of the
terms are rolled, one die after another; a fault leaves the record as it is. This comes to the
same as the outcome of the command, with as many dice as it says.

## Main definitions

* `Draw`: a die that has fallen
* `Rolling`: a computation during which dice may fall
* `Shaker.draw`, `DiceTerm.play`, `Text.play`: the fall of a die, of a term, and of a command
* `Text.played`: the result of a command, and the dice that fell

## Main results

* `DiceTerm.after_mapM_play`: what the dice of some terms leave in the record
* `Text.played_eq`: the result of a command, and the dice that its plan rolls
-/

namespace DiceBot

/-- A die that has fallen. -/
structure Draw where
  /-- The sides that it was rolled with. -/
  sides : Nat
  /-- The face that it shows. -/
  face : Nat
deriving DecidableEq

/-- A computation during which dice may fall. It may meet a fault, and the dice that have fallen
before stay in the record. -/
abbrev Rolling (α : Type) := ExceptT Fault (StateM (List Draw)) α

/-! ## The record -/

namespace Rolling

variable {α β : Type} {r : Rolling α} {fallen fallen' : List Draw}

/-- The result of a computation and the dice that have fallen after it, if some have fallen
before. -/
def after (fallen : List Draw) (r : Rolling α) : Except Fault α × List Draw :=
  (ExceptT.run r).run fallen

/-- A check during which no die falls. -/
def check (x : Except Fault α) : Rolling α :=
  ExceptT.mk (pure x)

@[simp] theorem after_pure (a : α) : (pure a : Rolling α).after fallen = (.ok a, fallen) :=
  rfl

theorem after_bind_of_ok {f : α → Rolling β} {a : α} (h : r.after fallen = (.ok a, fallen')) :
    (r >>= f).after fallen = (f a).after fallen' := by
  unfold after at *
  rw [ExceptT.run_bind, StateT.run_bind, h]
  rfl

theorem after_bind_of_error {f : α → Rolling β} {fault : Fault}
    (h : r.after fallen = (.error fault, fallen')) :
    (r >>= f).after fallen = (.error fault, fallen') := by
  unfold after at *
  rw [ExceptT.run_bind, StateT.run_bind, h]
  rfl

/-- What follows a check begins with the dice that had fallen before. -/
theorem after_check_bind (x : Except Fault α) (f : α → Rolling β) :
    (check x >>= f).after fallen = match x with
      | .ok a => (f a).after fallen
      | .error fault => (.error fault, fallen) := by
  cases x with
  | ok a => exact after_bind_of_ok rfl
  | error fault => exact after_bind_of_error rfl

/-- No die falls between checks. -/
theorem after_mapM_check (f : α → Except Fault β) (as : List α) :
    (as.mapM fun a => check (f a)).after fallen = (as.mapM f, fallen) := by
  induction as with
  | nil => rfl
  | cons a as ih =>
    rw [List.mapM_cons, List.mapM_cons, after_check_bind]
    cases f a with
    | error fault => rfl
    | ok b =>
      cases hrest : as.mapM f with
      | error fault => exact after_bind_of_error (ih.trans (by rw [hrest]))
      | ok bs => exact after_bind_of_ok (ih.trans (by rw [hrest]))

end Rolling

/-! ## The steps -/

/-- The fall of the next die, when the first of them has a given number in the sequence of
rolls. -/
def Shaker.draw (shaker : Shaker) (index sides : Nat) : Rolling Nat := do
  let fallen ← get
  let face := shaker.face (index + fallen.length) sides
  set (fallen ++ [(⟨sides, face⟩ : Draw)])
  return face

/-- The roll of a term, with one die after another. -/
def DiceTerm.play (shaker : Shaker) (index : Nat) (term : DiceTerm) : Rolling Roll := do
  let faces ← (List.replicate term.count term.sides).mapM (shaker.draw index)
  return term.result faces

/-- The dice term at a leaf of the tree, with the arithmetic behind its token. -/
def Plan.readLeaf (tokens : List Token) (leaf : Text × Nat) : Except Fault DiceTerm := do
  let term ← DiceTerm.ofText leaf.1 leaf.2
  let number := tokens.findIdx (·.position = leaf.2)
  return { term with suffix := (Token.suffixAt? tokens number).getD [] }

/-- The checks of a roll command step by step: its tokens, its tree, the walk over the tree, and
the dice terms that are met. -/
def Plan.play (t : Text) : Rolling Plan := do
  let pieces ← .check ((command t).pieces.mapError .malformed)
  let tokens := placed 0 pieces
  let tree ← .check (parse tokens)
  let leaves ← .check (tree.diceTerms room)
  let terms ← leaves.mapM fun leaf => .check (readLeaf tokens leaf)
  return { pieces, tree, terms }

/-- A roll command step by step: its checks, its dice, and its result. -/
def Text.play (t : Text) (shaker : Shaker) (index : Nat) : Rolling Outcome := do
  let plan ← Plan.play t
  let rolls ← plan.terms.mapM (DiceTerm.play shaker index)
  let outcome ← .check (plan.outcome rolls)
  return { outcome with rolls := outcome.ordered }

/-- The result of a roll command, and the dice that fell. -/
def Text.played (t : Text) (shaker : Shaker) (index : Nat) : Except Fault Outcome × List Draw :=
  (t.play shaker index).after []

/-! ## Dice -/

namespace Shaker

variable {shaker : Shaker} {index : Nat} {fallen : List Draw}

theorem faces_succ (count sides : Nat) :
    shaker.faces index (count + 1) sides =
      shaker.face index sides :: shaker.faces (index + 1) count sides := by
  rw [faces, faces, List.range_succ_eq_map, List.map_cons, List.map_map]
  refine congrArg (_ :: ·) (List.map_congr_left fun i _ => ?_)
  exact congrArg (shaker.face · sides) (by omega)

/-- The next die goes to the end of the record. -/
theorem after_draw (sides : Nat) :
    (shaker.draw index sides).after fallen =
      (.ok (shaker.face (index + fallen.length) sides),
        fallen ++ [⟨sides, shaker.face (index + fallen.length) sides⟩]) :=
  rfl

theorem after_mapM_draw (count sides : Nat) :
    ((List.replicate count sides).mapM (shaker.draw index)).after fallen =
      (.ok (shaker.faces (index + fallen.length) count sides),
        fallen ++ (shaker.faces (index + fallen.length) count sides).map (⟨sides, ·⟩)) := by
  induction count generalizing fallen with
  | zero => simp [faces]
  | succ count ih =>
    rw [List.replicate_succ, List.mapM_cons, Rolling.after_bind_of_ok (after_draw sides),
      Rolling.after_bind_of_ok ih, Rolling.after_pure, faces_succ, List.map_cons,
      List.length_append, List.length_singleton, List.append_assoc, List.singleton_append,
      ← Nat.add_assoc]

end Shaker

namespace DiceTerm

variable {shaker : Shaker} {index : Nat} {fallen : List Draw}

/-- Discarded or not, the values show the faces. -/
theorem map_natAbs_values (term : DiceTerm) (faces : List Nat) :
    (term.values faces).map Int.natAbs = faces := by
  unfold values
  split
  · rw [List.map_map]
    exact List.map_id faces
  · rename_i keep n _
    rw [List.map_map]
    refine Eq.trans (List.map_congr_left fun ⟨face, i⟩ _ => ?_) (List.zipIdx_map_fst 0 faces)
    show (if _ then -(face : Int) else face).natAbs = face
    split
    · rw [Int.natAbs_neg, Int.natAbs_natCast]
    · rw [Int.natAbs_natCast]

theorem length_values_roll (term : DiceTerm) (first : Nat) :
    (term.roll shaker first).values.length = term.count := by
  rw [← List.length_map Int.natAbs]
  refine (congrArg List.length (map_natAbs_values term _)).trans ?_
  rw [Shaker.length_faces]

/-- The dice of a term that has been rolled. -/
def drawn (term : DiceTerm) (r : Roll) : List Draw :=
  r.values.map fun v => ⟨term.sides, v.natAbs⟩

theorem drawn_roll (term : DiceTerm) (first : Nat) :
    term.drawn (term.roll shaker first) =
      (shaker.faces first term.count term.sides).map (⟨term.sides, ·⟩) := by
  rw [← map_natAbs_values term (shaker.faces first term.count term.sides), List.map_map]
  rfl

theorem after_play (term : DiceTerm) :
    (term.play shaker index).after fallen =
      (.ok (term.roll shaker (index + fallen.length)),
        fallen ++ term.drawn (term.roll shaker (index + fallen.length))) := by
  rw [play, Rolling.after_bind_of_ok (Shaker.after_mapM_draw ..), drawn_roll]
  rfl

/-- The dice of several terms that have been rolled. -/
def drawnAll (terms : List DiceTerm) (rolls : List Roll) : List Draw :=
  (List.zipWith drawn terms rolls).flatten

/-- The dice of several terms go to the end of the record, one term after another. -/
theorem after_mapM_play (terms : List DiceTerm) :
    (terms.mapM (play shaker index)).after fallen =
      (.ok (rollAll shaker (index + fallen.length) terms),
        fallen ++ drawnAll terms (rollAll shaker (index + fallen.length) terms)) := by
  induction terms generalizing fallen with
  | nil => simp [rollAll, drawnAll]
  | cons term rest ih =>
    have hnext : index + (fallen ++ term.drawn (term.roll shaker (index + fallen.length))).length =
        index + fallen.length + term.count := by
      rw [List.length_append, drawn, List.length_map, length_values_roll, Nat.add_assoc]
    rw [List.mapM_cons, Rolling.after_bind_of_ok (after_play term), Rolling.after_bind_of_ok ih,
      Rolling.after_pure, hnext, rollAll, drawnAll, drawnAll, List.zipWith_cons_cons,
      List.flatten_cons, List.append_assoc]

/-- Where each term has a roll, the dice show what the rolls hold. -/
theorem map_face_drawnAll {R : DiceTerm → Roll → Prop} {terms : List DiceTerm} {rolls : List Roll}
    (h : List.Forall₂ R terms rolls) :
    (drawnAll terms rolls).map Draw.face = rolls.flatMap fun r => r.values.map Int.natAbs := by
  induction h with
  | nil => rfl
  | @cons term r terms rolls _ _ ih =>
    have hterm : (term.drawn r).map Draw.face = r.values.map Int.natAbs := List.map_map
    rw [drawnAll, List.zipWith_cons_cons, List.flatten_cons, List.map_append, List.flatMap_cons,
      hterm, ← ih]
    rfl

theorem length_drawnAll (terms : List DiceTerm) (first : Nat) :
    (drawnAll terms (rollAll shaker first terms)).length = (terms.map count).sum := by
  induction terms generalizing first with
  | nil => rfl
  | cons term rest ih =>
    rw [rollAll, drawnAll, List.zipWith_cons_cons, List.flatten_cons, List.length_append,
      List.map_cons, List.sum_cons, ← ih (first + term.count), drawn, List.length_map,
      length_values_roll]
    rfl

end DiceTerm

/-! ## The command -/

namespace Token

theorem exists_append_of_mem_diceAmong {tokens following : List Token} {t : Token}
    (h : (t, following) ∈ diceAmong tokens) : ∃ front, tokens = front ++ t :: following := by
  induction tokens with
  | nil => cases h
  | cons u rest ih =>
    have hrest (h : (t, following) ∈ diceAmong rest) :
        ∃ front, u :: rest = front ++ t :: following := by
      obtain ⟨front, rfl⟩ := ih h
      exact ⟨u :: front, rfl⟩
    rw [diceAmong] at h
    split at h
    · rcases List.mem_cons.mp h with h | h
      · cases h
        exact ⟨[], rfl⟩
      · exact hrest h
    · exact hrest h

/-- What is found at the number of a token is the suffix behind it. -/
theorem suffixAt?_append (front following : List Token) (t : Token) :
    suffixAt? (front ++ t :: following) front.length = some (t.suffix following) := by
  have hnonneg : ¬ ((front.length : Nat) : Int) < 0 := by omega
  rw [suffixAt?, if_neg hnonneg, if_neg hnonneg, Int.toNat_natCast,
    List.getElem?_append_right (Nat.le_refl _), Nat.sub_self, List.getElem?_cons_zero,
    Option.map_some, List.append_cons, List.drop_left' (by simp)]

/-- Where the tokens stand at different places, a place leads back to its token. -/
theorem suffixAt?_findIdx {front following : List Token} {t : Token}
    (h : (front ++ t :: following).Pairwise fun u v => u.position < v.position) :
    suffixAt? (front ++ t :: following)
        ((front ++ t :: following).findIdx (·.position = t.position) : Nat) =
      some (t.suffix following) := by
  have hfront : ∀ u ∈ front, u.position < t.position := fun u hu =>
    (List.pairwise_append.mp h).2.2 u hu t List.mem_cons_self
  have hidx : (front ++ t :: following).findIdx (·.position = t.position) = front.length := by
    rw [List.findIdx_append, List.findIdx_eq_length.mpr fun u hu => by
      simpa using (hfront u hu).ne]
    simp [List.findIdx_cons]
  rw [hidx, suffixAt?_append]

end Token

namespace Plan

/-- The checks of the leaves are those of the dice tokens. -/
theorem mapM_readLeaf {tokens : List Token} {tree : Expr} (htree : parse tokens = .ok tree)
    (hplace : tokens.Pairwise fun u v => u.position < v.position) :
    tree.leaves.mapM (readLeaf tokens) = readTerms tokens := by
  rw [(parse_sound htree).2.leaves_eq, ← Token.map_fst_diceAmong, List.map_map, List.mapM_map]
  refine mapM_congr fun ⟨t, following⟩ h => ?_
  obtain ⟨front, rfl⟩ := Token.exists_append_of_mem_diceAmong h
  simp only [Function.comp_apply, readLeaf, Token.suffixAt?_findIdx hplace]
  rfl

/-- The checks of a text that is cut into pieces, one behind another. -/
theorem ofText_of_pieces {t : Text} {pieces : List Piece} (h : (command t).pieces = .ok pieces) :
    ofText t = parse (placed 0 pieces) >>= fun tree =>
      tree.diceTerms room >>= fun _ =>
        readTerms (placed 0 pieces) >>= fun terms => .ok { pieces, tree, terms } := by
  rw [ofText, h]
  refine bind_congr fun tree => ?_
  rw [Expr.diceTerms_eq]
  by_cases hreach : tree.reach ≤ room
  · rw [if_pos hreach, if_neg (not_lt.mpr hreach)]
    rfl
  · rw [if_neg hreach, if_pos (not_le.mp hreach)]
    rfl

/-- The checks come to the plan of the command, and no die falls during them. -/
theorem after_play (t : Text) (fallen : List Draw) :
    (play t).after fallen = (ofText t, fallen) := by
  rw [play, Rolling.after_check_bind]
  cases hpieces : (command t).pieces with
  | error cause =>
    rw [ofText, hpieces]
    rfl
  | ok pieces =>
    have hplace := pairwise_position_placed (Text.isProper_of_pieces hpieces) 0
    rw [ofText_of_pieces hpieces]
    refine (Rolling.after_check_bind _ _).trans ?_
    cases htree : parse (placed 0 pieces) with
    | error fault => rfl
    | ok tree =>
      refine (Rolling.after_check_bind _ _).trans ?_
      show _ = (tree.diceTerms room >>= _, fallen)
      rw [Expr.diceTerms_eq]
      by_cases hreach : tree.reach ≤ room
      · have hterms : (tree.leaves.mapM fun leaf =>
            Rolling.check (readLeaf (placed 0 pieces) leaf)).after fallen =
              (readTerms (placed 0 pieces), fallen) := by
          rw [Rolling.after_mapM_check, mapM_readLeaf htree hplace]
        rw [if_pos hreach]
        cases hread : readTerms (placed 0 pieces) with
        | error fault =>
          rw [hread] at hterms
          exact Rolling.after_bind_of_error hterms
        | ok terms =>
          rw [hread] at hterms
          exact Rolling.after_bind_of_ok hterms
      · rw [if_neg hreach]
        rfl

/-- The rolls of checked terms stand at places that ascend as those of the tokens do. -/
theorem pairwise_place_rollAll {tokens : List Token} {terms : List DiceTerm}
    (h : readTerms tokens = .ok terms)
    (hplace : (tokens.filter (·.lexeme.isDice)).Pairwise fun t u => t.position < u.position)
    (shaker : Shaker) (index : Nat) :
    (DiceTerm.rollAll shaker index terms).Pairwise fun r s => r.place < s.place := by
  refine pairwise_of_forall₂ (forall₂_place_rollAll h shaker index) hplace ?_
  rintro t u r s ⟨hr, _⟩ ⟨hs, _⟩ hlt
  omega

/-- The dice fall in the order of their places, so that the rolls need not be sorted. -/
theorem ordered_outcome {t : Text} {plan : Plan} (h : ofText t = .ok plan) {shaker : Shaker}
    {index : Nat} {outcome : Outcome}
    (ho : plan.outcome (DiceTerm.rollAll shaker index plan.terms) = .ok outcome) :
    { outcome with rolls := outcome.ordered } = outcome := by
  obtain ⟨hpieces, _, _, hterms⟩ := ofText_eq_ok_iff.mp h
  have hplace := pairwise_place_rollAll hterms
    (pairwise_dice_placed (Text.isProper_of_pieces hpieces) 0) shaker index
  obtain ⟨written, _, ho⟩ := bind_eq_ok_iff.mp ho
  obtain ⟨total, _, ho⟩ := bind_eq_ok_iff.mp ho
  cases ho
  refine congrArg (Outcome.mk _ _ · _) (List.mergeSort_of_pairwise ?_)
  exact hplace.imp fun hlt => decide_eq_true hlt.le

end Plan

/-- **A command step by step comes to its outcome**, and the dice that fall are those of its plan:
none if the checks meet a fault, and otherwise those of all terms. -/
theorem Text.played_eq (t : Text) (shaker : Shaker) (index : Nat) :
    t.played shaker index = match Plan.ofText t with
      | .error fault => (.error fault, [])
      | .ok plan =>
        let rolls := DiceTerm.rollAll shaker index plan.terms
        (plan.outcome rolls, DiceTerm.drawnAll plan.terms rolls) := by
  have hchecks := Plan.after_play t []
  rw [played, play]
  cases hplan : Plan.ofText t with
  | error fault =>
    rw [hplan] at hchecks
    exact Rolling.after_bind_of_error hchecks
  | ok plan =>
    rw [hplan] at hchecks
    rw [Rolling.after_bind_of_ok hchecks,
      Rolling.after_bind_of_ok (DiceTerm.after_mapM_play plan.terms), Rolling.after_check_bind,
      List.length_nil, Nat.add_zero, List.nil_append]
    show _ = (plan.outcome _, _)
    cases ho : plan.outcome (DiceTerm.rollAll shaker index plan.terms) with
    | error fault => rfl
    | ok outcome => exact congrArg (Except.ok ·, _) (Plan.ordered_outcome hplan ho)

theorem Text.played_fst (t : Text) (shaker : Shaker) (index : Nat) :
    (t.played shaker index).1 = (t.rolled shaker index).1 := by
  rw [played_eq, rolled]
  cases Plan.ofText t with
  | error fault => rfl
  | ok plan => rfl

/-- As many dice fall as the result tells. -/
theorem Text.length_played (t : Text) (shaker : Shaker) (index : Nat) :
    (t.played shaker index).2.length = (t.rolled shaker index).2 := by
  rw [played_eq, rolled]
  cases Plan.ofText t with
  | error fault => rfl
  | ok plan =>
    show (DiceTerm.drawnAll _ _).length = plan.diceCount
    rw [DiceTerm.length_drawnAll, Plan.diceCount, List.sum_eq_foldr, List.foldr_map]

end DiceBot
