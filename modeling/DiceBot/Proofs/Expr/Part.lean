import DiceBot.Expr.Value
import DiceBot.Proofs.Checked
import DiceBot.Proofs.Expr.Grammar

/-!
# Parts of expressions

An expression has a value only if each of its parts has one. What the reader has put together stays
a part of whatever it reads in the end, and nothing that is read later makes it lower.

## Main definitions

* `Expr.Part`: an expression is a part of another
* `Reader.Keeps`: an expression is a part of what has been read so far
* `Reader.floor`: the least height of an expression that begins with what has been read

## Main results

* `Expr.Part.exists_value`: a part of an expression with a value has a value
* `Expr.height_le_of_value`: a value needs room for the whole expression
* `Reader.Keeps.part_of_run`: what has been read is a part of the expression read in the end
* `Reader.floor_le_height`: what has been read is no higher than that expression
-/

namespace DiceBot

namespace Expr

/-- An expression is a part of another, or that expression itself. -/
inductive Part (p : Expr) : Expr → Prop where
  | self : Part p p
  | signed (s : Sign) {e : Expr} : Part p e → Part p (signed s e)
  | productLeft (s : Scaling) {l r : Expr} : Part p l → Part p (product s l r)
  | productRight (s : Scaling) {l r : Expr} : Part p r → Part p (product s l r)
  | sumLeft (s : Sign) {l r : Expr} : Part p l → Part p (sum s l r)
  | sumRight (s : Sign) {l r : Expr} : Part p r → Part p (sum s l r)
  | group {e : Expr} : Part p e → Part p (group e)

variable {p e : Expr}

/-- Both operands of an operator have values if the whole has one. -/
theorem exists_operands {x y : Except Fault Float} {k : Float → Float → Except Fault Float}
    {z : Float} (h : (x >>= fun a => y >>= k a) = .ok z) :
    ∃ a b, x = .ok a ∧ y = .ok b ∧ k a b = .ok z := by
  obtain ⟨a, ha, h⟩ := bind_eq_ok_iff.mp h
  obtain ⟨b, hb, h⟩ := bind_eq_ok_iff.mp h
  exact ⟨a, b, ha, hb, h⟩

theorem exists_value_of_product {total : Nat → Option Int} {room : Nat} {s : Scaling}
    {l r : Expr} {x : Float} (h : value total (room + 1) (product s l r) = .ok x) :
    ∃ a b, value total room l = .ok a ∧ value total room r = .ok b := by
  cases s <;>
  · obtain ⟨a, b, ha, hb, -⟩ := exists_operands h
    exact ⟨a, b, ha, hb⟩

theorem exists_value_of_sum {total : Nat → Option Int} {room : Nat} {s : Sign}
    {l r : Expr} {x : Float} (h : value total (room + 1) (sum s l r) = .ok x) :
    ∃ a b, value total room l = .ok a ∧ value total room r = .ok b := by
  cases s <;>
  · obtain ⟨a, b, ha, hb, -⟩ := exists_operands h
    exact ⟨a, b, ha, hb⟩

theorem exists_value_of_signed {total : Nat → Option Int} {room : Nat} {s : Sign} {e : Expr}
    {x : Float} (h : value total (room + 1) (signed s e) = .ok x) :
    ∃ a, value total room e = .ok a := by
  cases s with
  | plus => exact ⟨x, h⟩
  | minus =>
    obtain ⟨a, ha, -⟩ := bind_eq_ok_iff.mp h
    exact ⟨a, ha⟩

/-- A part of an expression with a value has a value. -/
theorem Part.exists_value {total : Nat → Option Int} {room : Nat} {x : Float} (h : Part p e)
    (hx : value total room e = .ok x) : ∃ room y, value total room p = .ok y := by
  induction h generalizing room x with
  | self => exact ⟨room, x, hx⟩
  | signed _ _ ih =>
    cases room with
    | zero => cases hx
    | succ room =>
      obtain ⟨a, ha⟩ := exists_value_of_signed hx
      exact ih ha
  | productLeft _ _ ih =>
    cases room with
    | zero => cases hx
    | succ room =>
      obtain ⟨a, -, ha, -⟩ := exists_value_of_product hx
      exact ih ha
  | productRight _ _ ih =>
    cases room with
    | zero => cases hx
    | succ room =>
      obtain ⟨-, b, -, hb⟩ := exists_value_of_product hx
      exact ih hb
  | sumLeft _ _ ih =>
    cases room with
    | zero => cases hx
    | succ room =>
      obtain ⟨a, -, ha, -⟩ := exists_value_of_sum hx
      exact ih ha
  | sumRight _ _ ih =>
    cases room with
    | zero => cases hx
    | succ room =>
      obtain ⟨-, b, -, hb⟩ := exists_value_of_sum hx
      exact ih hb
  | group _ ih =>
    cases room with
    | zero => cases hx
    | succ room => exact ih hx

/-- A number that a part divides by is not zero, if the whole has a value. -/
theorem Part.ne_zero_of_value {total : Nat → Option Int} {room : Nat} {x : Float} {l : Expr}
    {text : Text} {position : Nat} (h : Part (product .over l (number text position)) e)
    (hx : value total room e = .ok x) : (text.readNumber == 0.0) = false := by
  obtain ⟨room, y, hy⟩ := h.exists_value hx
  cases room with
  | zero => cases hy
  | succ room =>
    obtain ⟨a, b, -, hb, hquotient⟩ := exists_operands hy
    cases room with
    | zero => cases hb
    | succ room =>
      cases hb
      unfold quotient at hquotient
      split at hquotient
      · cases hquotient
      · rename_i hzero
        rwa [Bool.not_eq_true] at hzero

/-! ## Room -/

/-- An expression has a value only where there is room for all of it. -/
theorem height_le_of_value {total : Nat → Option Int} {room : Nat} {x : Float}
    (h : value total room e = .ok x) : e.height ≤ room := by
  induction e generalizing room x with
  | number | dice =>
    cases room with
    | zero => cases h
    | succ room => exact Nat.le_add_left 1 room
  | signed s e ih =>
    cases room with
    | zero => cases h
    | succ room =>
      obtain ⟨a, ha⟩ := exists_value_of_signed h
      exact Nat.succ_le_succ (ih ha)
  | product s l r ihl ihr =>
    cases room with
    | zero => cases h
    | succ room =>
      obtain ⟨a, b, ha, hb⟩ := exists_value_of_product h
      exact Nat.succ_le_succ (Nat.max_le.mpr ⟨ihl ha, ihr hb⟩)
  | sum s l r ihl ihr =>
    cases room with
    | zero => cases h
    | succ room =>
      obtain ⟨a, b, ha, hb⟩ := exists_value_of_sum h
      exact Nat.succ_le_succ (Nat.max_le.mpr ⟨ihl ha, ihr hb⟩)
  | group e ih =>
    cases room with
    | zero => cases h
    | succ room => exact Nat.succ_le_succ (ih h)

/-- More room than the height makes no difference to a value. -/
theorem value_eq_of_height_le {total : Nat → Option Int} {e : Expr} {room room' : Nat}
    (h : e.height ≤ room) (h' : e.height ≤ room') : value total room e = value total room' e := by
  induction e generalizing room room' with
  | number | dice =>
    obtain ⟨room, rfl⟩ := Nat.exists_eq_add_of_le' h
    obtain ⟨room', rfl⟩ := Nat.exists_eq_add_of_le' h'
    rfl
  | signed s e ih =>
    obtain ⟨room, rfl⟩ := Nat.exists_eq_add_of_le' (Nat.one_le_of_lt h)
    obtain ⟨room', rfl⟩ := Nat.exists_eq_add_of_le' (Nat.one_le_of_lt h')
    have he := ih (Nat.le_of_succ_le_succ h) (Nat.le_of_succ_le_succ h')
    cases s <;> simp only [value, he]
  | group e ih =>
    obtain ⟨room, rfl⟩ := Nat.exists_eq_add_of_le' (Nat.one_le_of_lt h)
    obtain ⟨room', rfl⟩ := Nat.exists_eq_add_of_le' (Nat.one_le_of_lt h')
    exact ih (Nat.le_of_succ_le_succ h) (Nat.le_of_succ_le_succ h')
  | product s l r ihl ihr | sum s l r ihl ihr =>
    obtain ⟨room, rfl⟩ := Nat.exists_eq_add_of_le' (Nat.one_le_of_lt h)
    obtain ⟨room', rfl⟩ := Nat.exists_eq_add_of_le' (Nat.one_le_of_lt h')
    obtain ⟨hl, hr⟩ := Nat.max_le.mp (Nat.le_of_succ_le_succ h)
    obtain ⟨hl', hr'⟩ := Nat.max_le.mp (Nat.le_of_succ_le_succ h')
    cases s <;> simp only [value, ihl hl hl', ihr hr hr']

/-- A value stays what it is where there is more room. -/
theorem value_of_le {total : Nat → Option Int} {room room' : Nat} {x : Float}
    (h : value total room e = .ok x) (hle : room ≤ room') : value total room' e = .ok x := by
  have hheight := height_le_of_value h
  rw [value_eq_of_height_le (hheight.trans hle) hheight]
  exact h

end Expr

/-! ## Parts of what waits -/

namespace Level

open DiceBot.Expr (Part)

variable {p e : Expr}

/-- An expression is a part of an operand that waits. -/
inductive Keeps (p : Expr) (l : Level) : Prop where
  | sum {a : Expr} {s : Sign} : l.sum = some (a, s) → Part p a → Keeps p l
  | product {a : Expr} {s : Scaling} : l.product = some (a, s) → Part p a → Keeps p l

theorem part_factor (l : Level) (h : Part p e) : Part p (l.factor e) := by
  obtain ⟨sum, product, signs⟩ := l
  induction signs generalizing e with
  | nil => exact h
  | cons s signs ih => exact ih (.signed s h)

theorem part_term (l : Level) (h : Part p e) : Part p (l.term e) := by
  unfold term
  split
  · exact l.part_factor h
  · exact .productRight _ (l.part_factor h)

theorem part_expr_of_term (l : Level) (h : Part p (l.term e)) : Part p (l.expr e) := by
  unfold expr
  split
  · exact h
  · exact .sumRight _ h

/-- What waits becomes a part of the expression that an operand completes. -/
theorem Keeps.part_expr {l : Level} (h : l.Keeps p) (e : Expr) : Part p (l.expr e) := by
  cases h with
  | sum hsum hp =>
    unfold expr
    rw [hsum]
    exact .sumLeft _ hp
  | product hproduct hp =>
    refine l.part_expr_of_term ?_
    unfold term
    rw [hproduct]
    exact .productLeft _ hp

end Level

/-! ## Parts of what has been read -/

namespace Reader

open DiceBot.Expr (Part)

/-- An expression is a part of what has been read: of the term that the operand completes, of an
operand that waits for it, or of one that waits around the open parentheses. -/
inductive Keeps (p : Expr) (r : Reader) : Prop where
  | operand {e : Expr} : r.operand = some e → Part p (r.level.term e) → Keeps p r
  | level : r.level.Keeps p → Keeps p r
  | outer {o : Nat × Level} : o ∈ r.outer → o.2.Keeps p → Keeps p r

variable {p tree : Expr} {r r' : Reader} {t : Token} {tokens : List Token}

/-- A token takes nothing away. -/
theorem Keeps.step (h : r.Keeps p) (hs : Step t r r') : r'.Keeps p := by
  cases hs with
  | number text | dice text =>
    cases h with
    | operand he => cases he
    | level hl => exact .level hl
    | outer ho hkeeps => exact .outer ho hkeeps
  | signed s =>
    cases h with
    | operand he => cases he
    | level hl =>
      cases hl with
      | sum hsum hp => exact .level (.sum hsum hp)
      | product hproduct hp => exact .level (.product hproduct hp)
    | outer ho hkeeps => exact .outer ho hkeeps
  | opening =>
    cases h with
    | operand he => cases he
    | level hl => exact .outer List.mem_cons_self hl
    | outer ho hkeeps => exact .outer (List.mem_cons_of_mem _ ho) hkeeps
  | @sum e level outer s =>
    cases h with
    | operand he hp =>
      cases he
      exact .level (.sum rfl (level.part_expr_of_term hp))
    | level hl => exact .level (.sum rfl (hl.part_expr e))
    | outer ho hkeeps => exact .outer ho hkeeps
  | @product e level outer s =>
    cases h with
    | operand he hp =>
      cases he
      exact .level (.product rfl hp)
    | level hl =>
      cases hl with
      | sum hsum hp => exact .level (.sum hsum hp)
      | product hproduct hp =>
        have hterm : Part p (level.term e) := by
          unfold Level.term
          rw [hproduct]
          exact .productLeft _ hp
        exact .level (.product rfl hterm)
    | outer ho hkeeps => exact .outer ho hkeeps
  | @closing e level around place outer =>
    have hgroup : Part p (level.expr e) →
        Keeps p ⟨some (.group (level.expr e)), around, outer⟩ :=
      fun hp => .operand rfl (around.part_term (.group hp))
    cases h with
    | operand he hp =>
      cases he
      exact hgroup (level.part_expr_of_term hp)
    | level hl => exact hgroup (hl.part_expr e)
    | outer ho hkeeps =>
      rcases List.mem_cons.mp ho with rfl | ho
      · exact .level hkeeps
      · exact .outer ho hkeeps

theorem Keeps.run (h : r.Keeps p) (hr : r.run tokens = .ok r') : r'.Keeps p := by
  induction tokens generalizing r with
  | nil =>
    cases hr
    exact h
  | cons t rest ih =>
    obtain ⟨next, hs, hn⟩ := run_cons_eq_ok_iff.mp hr
    exact ih (h.step hs) hn

/-- What has been read is a part of the expression that is read in the end. -/
theorem Keeps.part_of_run (h : r.Keeps p) (hr : r.run tokens = .ok r')
    (hfinish : r'.finish = .ok tree) : Part p tree := by
  obtain ⟨e, level, rfl, rfl⟩ := finish_eq_ok_iff.mp hfinish
  cases h.run hr with
  | operand he hp =>
    cases he
    exact level.part_expr_of_term hp
  | level hl => exact hl.part_expr e
  | outer ho => cases ho

end Reader

/-! ## Heights -/

namespace Level

/-- The height of the term that an operand of a height completes. -/
def heightOfTerm (l : Level) (h : Nat) : Nat :=
  match l.product with
  | none => h + l.signs.length
  | some (left, _) => max left.height (h + l.signs.length) + 1

/-- The height of the sum that an operand of a height completes. -/
def heightOver (l : Level) (h : Nat) : Nat :=
  match l.sum with
  | none => l.heightOfTerm h
  | some (left, _) => max left.height (l.heightOfTerm h) + 1

variable (l : Level) (e : Expr)

theorem height_factor : (l.factor e).height = e.height + l.signs.length := by
  obtain ⟨sum, product, signs⟩ := l
  induction signs generalizing e with
  | nil => rfl
  | cons s signs ih =>
    refine (ih (.signed s e)).trans ?_
    simp only [Expr.height, List.length_cons]
    omega

theorem height_term : (l.term e).height = l.heightOfTerm e.height := by
  unfold term heightOfTerm
  split <;> simp [Expr.height, height_factor, *]

theorem height_expr : (l.expr e).height = l.heightOver e.height := by
  unfold expr heightOver
  split <;> simp [Expr.height, height_term, *]

theorem height_term_le_height_expr : (l.term e).height ≤ (l.expr e).height := by
  unfold expr
  split
  · exact Nat.le_refl _
  · exact (Nat.le_max_right _ _).trans (Nat.le_succ _)

variable {l} {h h' : Nat}

theorem heightOfTerm_mono (hle : h ≤ h') : l.heightOfTerm h ≤ l.heightOfTerm h' := by
  unfold heightOfTerm
  split <;> omega

theorem heightOver_mono (hle : h ≤ h') : l.heightOver h ≤ l.heightOver h' := by
  have := heightOfTerm_mono (l := l) hle
  unfold heightOver
  split <;> omega

theorem le_heightOfTerm : h ≤ l.heightOfTerm h := by
  unfold heightOfTerm
  split <;> omega

theorem heightOfTerm_le_heightOver : l.heightOfTerm h ≤ l.heightOver h := by
  unfold heightOver
  split <;> omega

end Level

namespace Reader

/-- The height that an operand of a height reaches within the open parentheses. -/
def heightWithin (h : Nat) : List (Nat × Level) → Nat
  | [] => h
  | (_, around) :: outer => heightWithin (around.heightOver (h + 1)) outer

/-- The least height of an expression that begins with what has been read. -/
def floor (r : Reader) : Nat :=
  heightWithin (r.level.heightOver (r.operand.elim 1 Expr.height)) r.outer

variable {tree : Expr} {r r' : Reader} {t : Token} {tokens : List Token} {h h' : Nat}

theorem heightWithin_mono (hle : h ≤ h') (outer : List (Nat × Level)) :
    heightWithin h outer ≤ heightWithin h' outer := by
  induction outer generalizing h h' with
  | nil => exact hle
  | cons o outer ih => exact ih (Level.heightOver_mono (Nat.succ_le_succ hle))

theorem le_heightWithin (h : Nat) (outer : List (Nat × Level)) : h ≤ heightWithin h outer := by
  induction outer generalizing h with
  | nil => exact Nat.le_refl h
  | cons o outer ih =>
    have hover : h + 1 ≤ o.2.heightOver (h + 1) :=
      Level.le_heightOfTerm.trans Level.heightOfTerm_le_heightOver
    exact (Nat.le_succ h).trans (hover.trans (ih _))

/-- A token lowers nothing. -/
theorem floor_le_of_step (hs : Step t r r') : r.floor ≤ r'.floor := by
  cases hs with
  | number text | dice text => exact Nat.le_refl _
  | @signed level outer s =>
    refine heightWithin_mono ?_ outer
    simp only [Level.heightOver, Level.heightOfTerm, List.length_cons]
    split <;> split <;> omega
  | @opening level outer => exact heightWithin_mono (Level.heightOver_mono (Nat.le_succ 1)) outer
  | @sum e level outer s =>
    refine heightWithin_mono ?_ outer
    rw [Option.elim_some, ← level.height_expr]
    exact (Nat.le_max_left _ _).trans (Nat.le_succ _)
  | @product e level outer s =>
    refine heightWithin_mono ?_ outer
    have hterm : level.heightOfTerm e.height ≤
        ({ sum := level.sum, product := some (level.term e, s) } : Level).heightOfTerm 1 := by
      rw [← level.height_term]
      exact (Nat.le_max_left _ _).trans (Nat.le_succ _)
    simp only [Option.elim_some, Option.elim_none, Level.heightOver]
    split <;> omega
  | @closing e level around place outer =>
    refine heightWithin_mono ?_ outer
    rw [Option.elim_some, Option.elim_some, Expr.height, level.height_expr]

/-- What has been read is no higher than the expression that is read in the end. -/
theorem floor_le_height (hr : r.run tokens = .ok r') (hfinish : r'.finish = .ok tree) :
    r.floor ≤ tree.height := by
  induction tokens generalizing r with
  | nil =>
    cases hr
    obtain ⟨e, level, rfl, rfl⟩ := finish_eq_ok_iff.mp hfinish
    exact (level.height_expr e).ge
  | cons t rest ih =>
    obtain ⟨next, hs, hn⟩ := run_cons_eq_ok_iff.mp hr
    exact (floor_le_of_step hs).trans (ih hn)

/-- The sum that ends in the operand is no higher than what it is read for. -/
theorem height_le_floor (e : Expr) (level : Level) (outer : List (Nat × Level)) :
    (level.expr e).height ≤ floor ⟨some e, level, outer⟩ := by
  rw [level.height_expr]
  exact le_heightWithin _ outer

end Reader

end DiceBot
