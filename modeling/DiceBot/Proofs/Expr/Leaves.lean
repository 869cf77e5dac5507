import DiceBot.Expr.Value
import DiceBot.Proofs.Checked
import DiceBot.Proofs.Expr.Written

/-!
# Dice in an expression

The walk over an expression meets its dice terms as they are written, from the left to the right,
and loses none, provided that there is room for it. If there is not, it meets the node at which it
has to stop and fails as a whole. It never needs more room than the expression is high, but it needs
less where signs and parentheses stand around the operands of sums and products.

## Main definitions

* `Expr.leaves`: the dice terms of an expression, however deep they lie
* `Expr.IsWithin`: there is room to evaluate an expression without dice

## Main results

* `Expr.diceTerms_eq`: the walk meets all of them, or fails
* `Expr.searched_holdsDice`: what the search for dice finds
* `Expr.reach_le_height`: the walk reaches no deeper than the expression
* `Expr.IsWrittenAs.leaves_eq`: they are the dice among the tokens, in the order of the tokens
-/

namespace DiceBot

namespace Expr

/-- The dice terms of an expression from left to right, with their positions. -/
def leaves : Expr → List (Text × Nat)
  | number _ _ => []
  | dice text position => [(text, position)]
  | signed _ e => e.leaves
  | product _ l r => l.leaves ++ r.leaves
  | sum _ l r => l.leaves ++ r.leaves
  | group e => e.leaves

/-! ## The walk -/

theorem entry_le_height (e : Expr) : e.entry ≤ e.height := by
  induction e with
  | number | dice => exact Nat.le_refl 1
  | signed _ e ih | group e ih => exact Nat.succ_le_succ ih
  | product | sum => exact Nat.le_add_left 1 _

/-- A walk reaches no deeper than the expression. -/
theorem reach_le_height (e : Expr) : e.reach ≤ e.height := by
  induction e with
  | number | dice => exact Nat.le_refl 1
  | signed _ e ih | group e ih =>
    exact Nat.max_le.mpr ⟨Nat.succ_le_succ e.entry_le_height, Nat.le_succ_of_le ih⟩
  | product _ l r ihl ihr | sum _ l r ihl ihr =>
    simp only [reach, height]
    omega

theorem stops_of_reach_le {e : Expr} {room : Nat} (h : e.reach ≤ room) :
    e.stops room = e.leaves.map fun leaf => .dice leaf.1 leaf.2 := by
  induction e generalizing room with
  | number | dice =>
    obtain ⟨room, rfl⟩ := Nat.exists_eq_add_of_le' h
    rfl
  | signed _ e ih | group e ih =>
    obtain ⟨hentry, hreach⟩ := Nat.max_le.mp h
    obtain ⟨room, rfl⟩ := Nat.exists_eq_add_of_le' (Nat.one_le_of_lt hentry)
    rw [stops, if_pos (Nat.le_of_succ_le_succ hentry), ih hreach, leaves]
  | product _ l r ihl ihr | sum _ l r ihl ihr =>
    obtain ⟨room, rfl⟩ := Nat.exists_eq_add_of_le' (Nat.one_le_of_lt h)
    obtain ⟨hl, hr⟩ := Nat.max_le.mp (Nat.le_of_succ_le_succ h)
    rw [stops, ihl hl, ihr hr, leaves, List.map_append]

theorem abyss_mem_stops {e : Expr} {room : Nat} (h : room < e.reach) :
    .abyss ∈ e.stops room := by
  induction e generalizing room with
  | number | dice =>
    obtain rfl := Nat.lt_one_iff.mp h
    exact List.mem_singleton_self _
  | signed _ e ih | group e ih =>
    cases room with
    | zero => exact List.mem_singleton_self _
    | succ room =>
      rw [stops]
      split
      · rename_i hentry
        have hreach : room + 1 < e.reach := by
          simp only [reach] at h
          omega
        exact ih hreach
      · exact List.mem_singleton_self _
  | product _ l r ihl ihr | sum _ l r ihl ihr =>
    cases room with
    | zero => exact List.mem_singleton_self _
    | succ room =>
      have hdeep : room < l.reach ∨ room < r.reach := by
        simp only [reach] at h
        omega
      rcases hdeep with hl | hr
      · exact List.mem_append_left _ (ihl hl)
      · exact List.mem_append_right _ (ihr hr)

/-- The walk meets all dice terms, or it fails because there is no room for it. -/
theorem diceTerms_eq (e : Expr) (room : Nat) :
    e.diceTerms room = if e.reach ≤ room then .ok e.leaves else .error .tooDeep := by
  split
  · rename_i h
    refine mapM_eq_ok_iff.mpr ?_
    rw [stops_of_reach_le h, List.forall₂_map_left_iff]
    exact List.forall₂_same.mpr fun _ _ => rfl
  · rename_i h
    cases hwalk : e.diceTerms room with
    | ok terms =>
      obtain ⟨term, hterm⟩ :=
        exists_mapM_eq_ok_iff.mp ⟨terms, hwalk⟩ _ (abyss_mem_stops (Nat.not_le.mp h))
      cases hterm
    | error fault =>
      obtain ⟨_, stop, _, _, _, hstop⟩ := mapM_eq_error_iff.mp hwalk
      cases stop with
      | dice => cases hstop
      | abyss =>
        cases hstop
        rfl

/-! ## The search for dice -/

theorem leaves_ne_nil_of_stops {e : Expr} {room : Nat} {text : Text} {position : Nat}
    (h : .dice text position ∈ e.stops room) : e.leaves ≠ [] := by
  induction e generalizing room with
  | number =>
    cases room <;> simp [stops] at h
  | dice => simp [leaves]
  | signed _ e ih | group e ih =>
    cases room with
    | zero => simp [stops] at h
    | succ room =>
      rw [stops] at h
      split at h
      · exact ih h
      · simp at h
  | product _ l r ihl ihr | sum _ l r ihl ihr =>
    cases room with
    | zero => simp [stops] at h
    | succ room =>
      rcases List.mem_append.mp h with hl | hr
      · exact List.append_ne_nil_of_left_ne_nil (ihl hl) _
      · exact List.append_ne_nil_of_right_ne_nil _ (ihr hr)

/-- What comes of the search for dice. -/
inductive Searched (e : Expr) (room : Nat) : Except Fault Bool → Prop where
  | free : e.reach ≤ room → e.leaves = [] → Searched e room (.ok false)
  | dice : e.leaves ≠ [] → Searched e room (.ok true)
  | deep : room < e.reach → Searched e room (.error .tooDeep)

theorem searched_holdsDice (e : Expr) (room : Nat) : e.Searched room (e.holdsDice room) := by
  unfold holdsDice
  split
  · rename_i hstops
    have hreach : e.reach ≤ room := by
      by_contra hdeep
      have habyss := abyss_mem_stops (Nat.lt_of_not_le hdeep)
      rw [hstops] at habyss
      cases habyss
    rw [stops_of_reach_le hreach, List.map_eq_nil_iff] at hstops
    exact .free hreach hstops
  · rename_i hstops
    exact .dice (leaves_ne_nil_of_stops (hstops ▸ List.mem_cons_self))
  · rename_i hstops
    refine .deep (Nat.lt_of_not_le fun hreach => ?_)
    have habyss := hstops ▸ stops_of_reach_le hreach
    have hmem : Stop.abyss ∈ e.leaves.map fun leaf => Stop.dice leaf.1 leaf.2 :=
      habyss ▸ List.mem_cons_self
    simp at hmem

/-- The search finds none in an expression that holds none, if there is room for it. -/
theorem holdsDice_eq {e : Expr} (h : e.leaves = []) (room : Nat) :
    e.holdsDice room = if e.reach ≤ room then .ok false else .error .tooDeep := by
  have hsearched := e.searched_holdsDice room
  generalize e.holdsDice room = found at hsearched ⊢
  cases hsearched with
  | free hreach _ => rw [if_pos hreach]
  | dice hleaves => exact absurd h hleaves
  | deep hdeep => rw [if_neg (Nat.not_le.mpr hdeep)]

/-- There is room to search an expression for dice and to evaluate it: of some nested calls the
search takes two for itself, and the evaluation one. -/
structure IsWithin (e : Expr) (room : Nat) : Prop where
  reach : e.reach ≤ room - 2
  height : e.height ≤ room - 1

/-! ## The tokens -/

/-- The dice terms of an expression are those of the tokens it is written as. -/
theorem IsWrittenAs.leaves_eq {e : Expr} {tokens : List Token} (h : e.IsWrittenAs tokens) :
    e.leaves = (tokens.filter (·.lexeme.isDice)).map fun t => (t.text, t.position) := by
  induction e generalizing tokens with
  | number text position =>
    obtain rfl := isWrittenAs_number.mp h
    rfl
  | dice text position =>
    obtain rfl := isWrittenAs_dice.mp h
    rfl
  | signed s e ih =>
    obtain ⟨t, rest, rfl, ht, hrest⟩ := isWrittenAs_signed.mp h
    rw [List.filter_cons_of_neg (by simp [ht, Lexeme.isDice]), leaves, ih hrest]
  | product s l r ihl ihr =>
    obtain ⟨front, t, back, rfl, hl, ht, hr⟩ := isWrittenAs_product.mp h
    rw [List.filter_append, List.filter_cons_of_neg (by simp [ht, Lexeme.isDice]),
      List.map_append, leaves, ihl hl, ihr hr]
  | sum s l r ihl ihr =>
    obtain ⟨front, t, back, rfl, hl, ht, hr⟩ := isWrittenAs_sum.mp h
    rw [List.filter_append, List.filter_cons_of_neg (by simp [ht, Lexeme.isDice]),
      List.map_append, leaves, ihl hl, ihr hr]
  | group e ih =>
    obtain ⟨t, inner, u, rfl, ht, hinner, hu⟩ := isWrittenAs_group.mp h
    rw [List.filter_cons_of_neg (by simp [ht, Lexeme.isDice]), List.filter_append,
      List.filter_cons_of_neg (by simp [hu, Lexeme.isDice]), List.filter_nil, List.append_nil,
      leaves, ih hinner]

end Expr

/-- What comes of a text without dice. -/
theorem Text.valueWithin_eq {t : Text} {e : Expr} (he : t.expr = .ok e) (h : e.leaves = [])
    (room : Nat) :
    t.valueWithin room =
      if e.reach ≤ room - 2 then e.unrolledValue (room - 1) else .error .tooDeep := by
  rw [valueWithin, he]
  show (e.holdsDice _ >>= fun found => if found then _ else e.unrolledValue _) = _
  rw [Expr.holdsDice_eq h]
  split <;> rfl

end DiceBot
