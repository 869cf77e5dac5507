import DiceBot.Proofs.Dice.Plan
import DiceBot.Proofs.Expr.Alike
import DiceBot.Proofs.Expr.Part
import DiceBot.Proofs.Text.Numeral
import DiceBot.Proofs.Token.Cut

/-!
# Flattened commands

Replacing each dice term of a command by its total leaves the slices of the text between the terms
as they are. What comes of it is again an expression, of the same shape, whose value is the total of
the command. A total is a numeral; it stands where a dice term stood, so that nothing next to it can
be taken into it, nor it into anything else.

## Main definitions

* `Text.spliced`: a text with some of its tokens replaced
* `Plan.substitute`: the pieces of a command with numbers in the place of its dice terms
* `Expr.Flattened`: a leaf of a command and the leaf of its flattened text

## Main results

* `flattened_eq_spliced`: the flattened text holds the slices of the text between its dice terms
* `Plan.pieces_flatten`: the flattened text is cut into the pieces that it was put together from
* `Plan.forall₂_placed_substitute`: its tokens are those of the command but for the dice terms
-/

namespace DiceBot

/-- A text from a place on with some tokens replaced: the slices between the tokens, and in the
stead of each token what is written for it. -/
def Text.spliced (t : Text) (start : Nat) : List (Token × Text) → Text
  | [] => t.drop start
  | (u, w) :: rest => (t.drop start).take (u.position - start) ++ w ++ spliced t u.stop rest

namespace Plan

/-- The pieces of a command with numbers in the place of its dice terms. -/
def substitute : List Piece → List Text → List Piece
  | [], _ => []
  | .lexeme (.dice _) :: rest, total :: totals => .lexeme (.number total) :: substitute rest totals
  | piece :: rest, totals => piece :: substitute rest totals

theorem flatten_eq (ps : List Piece) (totals : List Text) :
    flatten ps totals = (substitute ps totals).flatMap Piece.text := by
  fun_induction substitute ps totals with
  | case1 => rfl
  | case2 _ _ _ _ ih => rw [flatten, ih]; rfl
  | case3 _ _ _ h ih => rw [flatten, ih]; rfl; exact h

/-! ## Slices -/

/-- The slice of a text from a place on whose first piece has been passed over. -/
theorem take_append_piece {t : Text} {p : Piece} {ps : List Piece} {start i : Nat}
    (hstart : start ≤ i) (hdrop : t.drop i = (p :: ps).flatMap Piece.text) (rest : Text) :
    (t.drop start).take (i + p.text.length - start) ++ rest =
      (t.drop start).take (i - start) ++ (p.text ++ rest) := by
  have hbehind : (t.drop start).drop (i - start) = p.text ++ ps.flatMap Piece.text := by
    rw [List.drop_drop, Nat.add_sub_cancel' hstart, hdrop, List.flatMap_cons]
  rw [Nat.sub_add_comm hstart, List.take_add, hbehind, List.take_left, List.append_assoc]

/-- Putting pieces together replaces slices of the text, from the position of each dice term to its
stop. -/
theorem spliced_placed {t : Text} {ps : List Piece} {written : List Text} {start i : Nat}
    (hstart : start ≤ i) (hdrop : t.drop i = ps.flatMap Piece.text)
    (hlength : written.length = ((placed i ps).filter (·.lexeme.isDice)).length) :
    t.spliced start (((placed i ps).filter (·.lexeme.isDice)).zip written) =
      (t.drop start).take (i - start) ++ flatten ps written := by
  induction ps generalizing start i written with
  | nil =>
    have hall : (t.drop start).drop (i - start) = [] := by
      rw [List.drop_drop, Nat.add_sub_cancel' hstart, hdrop, List.flatMap_nil]
    show t.drop start = (t.drop start).take (i - start) ++ []
    rw [← hall, List.take_append_drop]
  | cons p ps ih =>
    have hrest : t.drop (i + p.text.length) = ps.flatMap Piece.text := by
      rw [← List.drop_drop, hdrop, List.flatMap_cons, List.drop_left]
    have hskip := fun h => (ih (hstart.trans (Nat.le_add_right i _)) hrest h).trans
      (take_append_piece hstart hdrop (flatten ps written))
    cases p with
    | blanks run => exact hskip hlength
    | lexeme l =>
      cases l with
      | dice text =>
        obtain ⟨total, totals, rfl⟩ := List.exists_cons_of_length_eq_add_one hlength
        have hbehind := ih (Nat.le_refl _) hrest (Nat.succ.inj hlength)
        rw [Nat.sub_self, List.take_zero, List.nil_append] at hbehind
        show (t.drop start).take (i - start) ++ total ++ t.spliced (i + text.length) _ = _
        rw [List.append_assoc]
        exact congrArg (fun behind => _ ++ (total ++ behind)) hbehind
      | _ => exact hskip hlength

/-! ## The pieces keep apart -/

/-- Leaves are exchanged for leaves, and everything else stays. -/
theorem map_isLeaf_substitute (ps : List Piece) (totals : List Text) :
    (substitute ps totals).map (fun p => (p.isLeaf, p.isBlanks)) =
      ps.map fun p => (p.isLeaf, p.isBlanks) := by
  fun_induction substitute ps totals with
  | case1 => rfl
  | case2 _ _ _ _ ih => rw [List.map_cons, List.map_cons, ih]; rfl
  | case3 _ _ _ _ ih => rw [List.map_cons, List.map_cons, ih]

theorem isChain_substitute {ps : List Piece} (h : ps.IsChain Piece.MayPrecede)
    (totals : List Text) : (substitute ps totals).IsChain Piece.MayPrecede := by
  let apart (a b : Bool × Bool) : Prop := (a.1 = true → b.1 = false) ∧ (a.2 = true → b.2 = false)
  have hmap : ∀ qs : List Piece, (qs.map fun p => (p.isLeaf, p.isBlanks)).IsChain apart ↔
      qs.IsChain Piece.MayPrecede := fun qs => List.isChain_map _
  rw [← hmap, map_isLeaf_substitute, hmap]
  exact h

theorem isProper_of_mem_substitute {ps : List Piece} {totals : List Text}
    (hp : ∀ p ∈ ps, p.IsProper) (ht : ∀ t ∈ totals, t.IsDigits) :
    ∀ p ∈ substitute ps totals, p.IsProper := by
  fun_induction substitute ps totals with
  | case1 => exact hp
  | case2 _ _ total _ ih =>
    rintro p (_ | ⟨_, h⟩)
    · exact .whole (ht total (by simp))
    · exact ih (fun p hp' => hp p (by simp [hp'])) (fun t ht' => ht t (by simp [ht'])) p h
  | case3 q _ _ _ ih =>
    rintro p (_ | ⟨_, h⟩)
    · exact hp q (by simp)
    · exact ih (fun p hp' => hp p (by simp [hp'])) ht p h

/-- The flattened text is cut into the pieces that it was put together from. -/
theorem pieces_flatten {t : Text} {plan : Plan} (h : ofText t = .ok plan) {totals : List Text}
    (ht : ∀ t ∈ totals, t.IsDigits) :
    (flatten plan.pieces totals).pieces = .ok (substitute plan.pieces totals) := by
  obtain ⟨hpieces, htree, _, _⟩ := ofText_eq_ok_iff.mp h
  obtain ⟨_, _, _, hrun, _⟩ := parse_eq_ok_iff.mp htree
  have hproper := isProper_of_mem_substitute (Text.isProper_of_pieces hpieces) ht
  have hchain := isChain_mayPrecede (Text.isChain_of_pieces hpieces) (Reader.isChain_run hrun)
  rw [flatten_eq]
  exact Text.pieces_flatMap hproper (isChain_substitute hchain _)

end Plan

/-! ## The tokens are alike -/

namespace Expr

/-- A leaf of a command and the leaf of its flattened text. -/
inductive Flattened (total : Nat → Option Int) : Expr → Expr → Prop where
  | number (text : Text) (p q : Nat) : Flattened total (.number text p) (.number text q)
  | dice (text : Text) (p q : Nat) {n : Nat} :
      total p = some (n : Int) → Flattened total (.dice text p) (.number (.natural n) q)

theorem Flattened.leaves_eq_nil {total : Nat → Option Int} {e e' : Expr}
    (h : Flattened total e e') : e'.leaves = [] := by
  cases h <;> rfl

/-- The double of a total is the double of its numeral. -/
theorem Flattened.value_eq_ok {total : Nat → Option Int} {e e' : Expr}
    (h : Flattened total e e') (total' : Nat → Option Int) (room : Nat) (x : Float)
    (hx : value total (room + 1) e = .ok x) : value total' (room + 1) e' = .ok x := by
  cases h with
  | number text p q => exact hx
  | @dice text p q n hn =>
    rw [value, hn] at hx
    change floatOfInteger (n : Int) = .ok x at hx
    rw [Text.floatOfInteger_natCast] at hx
    split at hx
    · exact hx
    · cases hx

end Expr

namespace Plan

/-- The tokens of the flattened text are those of the command, but for the dice terms, which are
the numerals of their totals. -/
theorem forall₂_placed_substitute {total : Nat → Option Int} {ps : List Piece} {i : Nat}
    {written : List Text}
    (h : List.Forall₂ (fun t w => ∃ n : Nat, total t.position = some (n : Int) ∧ w = .natural n)
      ((placed i ps).filter (·.lexeme.isDice)) written) (j : Nat) :
    List.Forall₂ (Token.Alike (Expr.Flattened total)) (placed i ps)
      (placed j (substitute ps written)) := by
  -- the positions in the two texts drift apart, so both are general
  induction ps generalizing i j written with
  | nil => exact .nil
  | cons p ps ih =>
    obtain l | run := p
    swap
    · exact ih h _
    cases l with
    | dice text =>
      obtain ⟨_, rest, ⟨n, hn, rfl⟩, hrest, rfl⟩ := List.forall₂_cons_left_iff.mp h
      exact .cons (.inl ⟨_, _, rfl, rfl, .dice text i j hn⟩) (ih hrest _)
    | number text => exact .cons (.inl ⟨_, _, rfl, rfl, .number text i j⟩) (ih h _)
    | _ => exact .cons (.inr ⟨rfl, rfl⟩) (ih h _)

/-- The totals of the rolls as they are written into the flattened text. -/
theorem forall₂_written {t : Text} {plan : Plan} (h : ofText t = .ok plan) (shaker : Shaker)
    (index : Nat) {written : List Text}
    (hw : (DiceTerm.rollAll shaker index plan.terms).mapM (fun r => Text.writeInteger r.total) =
      .ok written) :
    List.Forall₂ (fun t w => ∃ n : Nat,
        totals (DiceTerm.rollAll shaker index plan.terms) t.position = some (n : Int) ∧
          w = .natural n)
      ((placed 0 plan.pieces).filter (·.lexeme.isDice)) written := by
  refine (forall₂_trans (forall₂_totals_rollAll h shaker index) (mapM_eq_ok_iff.mp hw)).imp ?_
  rintro t w ⟨r, ⟨htotal, hnonneg⟩, hr⟩
  obtain ⟨n, hn⟩ := Int.eq_ofNat_of_zero_le hnonneg
  rw [hn] at hr htotal
  exact ⟨n, htotal, Text.writeInteger_natCast hr⟩

theorem isDigits_written {t : Text} {plan : Plan} (h : ofText t = .ok plan) {shaker : Shaker}
    {index : Nat} {written : List Text}
    (hw : (DiceTerm.rollAll shaker index plan.terms).mapM (fun r => Text.writeInteger r.total) =
      .ok written) : ∀ w ∈ written, Text.IsDigits w := by
  intro w hw'
  obtain ⟨_, _, n, _, rfl⟩ := exists_of_mem_right (forall₂_written h shaker index hw) hw'
  exact Text.isDigits_natural n

end Plan

/-- The flattened text of a command is put together from the slices of its text between the dice
terms, and from the totals. -/
theorem flattened_eq_spliced {t : Text} {shaker : Shaker} {index : Nat} {outcome : Outcome}
    (h : (t.rolled shaker index).1 = .ok outcome) :
    ∃ tokens written, (Plan.command t).tokens = .ok tokens ∧
      outcome.rolls.mapM (fun r => Text.writeInteger r.total) = .ok written ∧
      outcome.flattened =
        (Plan.command t).spliced 0 ((tokens.filter (·.lexeme.isDice)).zip written) := by
  obtain ⟨plan, written, hplan, hrolls, hw, -, -, hflattened⟩ := Plan.exists_of_rolled h
  obtain ⟨hpieces, -, -, -⟩ := Plan.ofText_eq_ok_iff.mp hplan
  have hlength := (Plan.forall₂_written hplan shaker index (hrolls ▸ hw)).length_eq.symm
  have htext : (Plan.command t).drop 0 = plan.pieces.flatMap Piece.text :=
    (Text.flatMap_of_pieces hpieces).symm
  refine ⟨placed 0 plan.pieces, written, ?_, hw, ?_⟩
  · rw [Text.tokens, hpieces]
    rfl
  · rw [hflattened, Plan.spliced_placed (Nat.zero_le 0) htext hlength]
    rfl

/-- The flattened text of a command has the value of the command. -/
theorem value_flattened {t : Text} {shaker : Shaker} {index : Nat} {outcome : Outcome}
    (h : (t.rolled shaker index).1 = .ok outcome) :
    outcome.flattened.value = .ok outcome.total := by
  unfold Text.rolled at h
  split at h
  · cases h
  rename_i plan hplan
  obtain ⟨written, hw, h⟩ := bind_eq_ok_iff.mp h
  obtain ⟨total, hvalue, h⟩ := bind_eq_ok_iff.mp h
  cases h
  have hnumerals := Plan.forall₂_written hplan shaker index hw
  have hdigits := Plan.isDigits_written hplan hw
  have hpieces := Plan.pieces_flatten hplan hdigits
  obtain ⟨_, htree, _, _⟩ := Plan.ofText_eq_ok_iff.mp hplan
  obtain ⟨tree', htree', halike⟩ := parse_alike htree (Plan.forall₂_placed_substitute hnumerals 0)
  have hexpr : (Plan.flatten plan.pieces written).expr = .ok tree' := by
    rw [Text.expr, Text.tokens, hpieces]
    exact htree'
  obtain ⟨x, hx, hfinite⟩ := bind_eq_ok_iff.mp hvalue
  have hheight : tree'.height ≤ Plan.room - 1 := by
    rw [halike.height_eq]
    exact Expr.height_le_of_value hx
  have hreach : tree'.reach ≤ Expr.callRoom - 2 := tree'.reach_le_height.trans hheight
  have hleaves : tree'.leaves = [] := halike.leaves_eq_nil fun _ _ h => h.leaves_eq_nil
  have hx' := halike.value_eq_ok (fun _ _ h => h.value_eq_ok fun _ => none) hx
  show (Plan.flatten plan.pieces written).valueWithin Expr.callRoom = .ok total
  rw [Text.valueWithin_eq hexpr hleaves, if_pos hreach]
  exact bind_eq_ok_iff.mpr ⟨x, Expr.value_of_le hx' (by decide), hfinite⟩

theorem value_flattened_of_command :
    ∃ outcome, (Text.rolled "(2d6 + 3)*2 - d4" (.ofStream id) 0).1 = .ok outcome ∧
      outcome.flattened = "(3 + 3)*2 - 3" ∧ outcome.flattened.value = .ok outcome.total := by
  have hflat : ((Text.rolled "(2d6 + 3)*2 - d4" (.ofStream id) 0).1 >>= fun outcome =>
      .ok outcome.flattened) = .ok (Text.ofString "(3 + 3)*2 - 3") := by
    decide +kernel
  obtain ⟨outcome, h, hflat⟩ := bind_eq_ok_iff.mp hflat
  exact ⟨outcome, h, Except.ok.inj hflat, value_flattened h⟩

end DiceBot
