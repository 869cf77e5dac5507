import DiceBot.Proofs.Expr.Step

/-!
# The grammar of expressions

Reading tokens gives the expression of the grammar that is written as these tokens, and a fault if
there is none. Signs of one precedence are grouped to the left, and scalings bind more tightly. An
expression that nests too deeply is refused, and so are tokens that open or sign too much before
it is clear that they write nothing.

## Main definitions

* `Reader.Reads`: reading some tokens ends as it should, or is refused because they nest too deeply
* `Token.weight`: what a token can add to the depth

## Main results

* `Expr.IsSum.reads`: the tokens of an expression are read as that expression
* `parse_sound`: what is read is an expression of the grammar, written as the tokens
* `parse_of_isWrittenAs`: an expression that is written is read, or too deep
-/

namespace DiceBot

namespace Reader

/-- Reading tokens that nest to a depth ends in a reader of a kind, unless the depth is refused. -/
def Reads (r : Reader) (tokens : List Token) (nesting : Nat) (P : Reader → Prop) : Prop :=
  (r.depth + nesting < depthLimit ∧ ∃ r', r.run tokens = .ok r' ∧ P r') ∨
    (depthLimit ≤ r.depth + nesting ∧ r.run tokens = .error .tooDeep)

variable {r : Reader} {front back rest : List Token} {t : Token} {m n : Nat} {P Q : Reader → Prop}

theorem Reads.imp (h : r.Reads front n P) (hq : ∀ r', P r' → Q r') : r.Reads front n Q :=
  h.imp_left fun ⟨hd, r', hr, hp⟩ => ⟨hd, r', hr, hq r' hp⟩

/-- A token that goes deeper, and what is read behind it. -/
theorem Reads.descend {next : Reader} {k : Nat} (hs : r.step t = next.withinLimit)
    (hk : next.depth = r.depth + k) (h : next.depth < depthLimit → next.Reads rest n P) :
    r.Reads (t :: rest) (n + k) P := by
  by_cases hd : next.depth < depthLimit
  · have hrun : r.run (t :: rest) = next.run rest := by simp [run, hs, withinLimit, hd]
    rcases h hd with ⟨hn, hr⟩ | ⟨hn, hr⟩
    · exact .inl ⟨by omega, by rwa [hrun]⟩
    · exact .inr ⟨by omega, by rwa [hrun]⟩
  · have hrun : r.run (t :: rest) = .error .tooDeep := by simp [run, hs, withinLimit, hd]
    exact .inr ⟨by omega, hrun⟩

/-- A token behind what has been read. -/
theorem Reads.snoc (h : r.Reads front n P) (hs : ∀ r', P r' → ∃ r'', Step t r' r'' ∧ Q r'') :
    r.Reads (front ++ [t]) n Q := by
  rcases h with ⟨hn, r', hr, hp⟩ | ⟨hn, hr⟩
  · obtain ⟨r'', hstep, hq⟩ := hs r' hp
    refine .inl ⟨hn, r'', ?_, hq⟩
    rw [run_append, hr]
    exact run_cons_eq_ok_iff.mpr ⟨r'', hstep, rfl⟩
  · refine .inr ⟨hn, ?_⟩
    rw [run_append, hr]
    rfl

/-- Tokens at the same depth behind what has been read. -/
theorem Reads.append (h : r.Reads front m P)
    (hb : ∀ r', P r' → r'.depth = r.depth ∧ (r'.depth < depthLimit → r'.Reads back n Q)) :
    r.Reads (front ++ back) (max m n) Q := by
  rcases h with ⟨hm, r', hr, hp⟩ | ⟨hm, hr⟩
  · obtain ⟨hd, hb⟩ := hb r' hp
    have hrun : r.run (front ++ back) = r'.run back := by
      rw [run_append, hr]
      rfl
    rcases hb (by omega) with ⟨hn, hr'⟩ | ⟨hn, hr'⟩
    · exact .inl ⟨by omega, by rwa [hrun]⟩
    · exact .inr ⟨by omega, by rwa [hrun]⟩
  · refine .inr ⟨by omega, ?_⟩
    rw [run_append, hr]
    rfl

end Reader

namespace Expr

open Reader (depth depthLimit Reads)

/-! ## Reading what is written -/

/-- The tokens of a factor are read as an operand and the signs before it. -/
def ReadsAsFactor (e : Expr) : Prop :=
  ∀ (level : Level) (outer : List (Nat × Level)) (tokens : List Token),
    depth ⟨none, level, outer⟩ < depthLimit → e.IsWrittenAs tokens →
    Reads ⟨none, level, outer⟩ tokens e.nesting fun r =>
      ∃ a signs, r = ⟨some a, { level with signs }, outer⟩ ∧
        ({ level with signs } : Level).factor a = level.factor e

/-- The tokens of a term are read so that the operand read last completes it. -/
def ReadsAsTerm (e : Expr) : Prop :=
  ∀ (sum : Option (Expr × Sign)) (outer : List (Nat × Level)) (tokens : List Token),
    depth ⟨none, { sum }, outer⟩ < depthLimit → e.IsWrittenAs tokens →
    Reads ⟨none, { sum }, outer⟩ tokens e.nesting fun r =>
      ∃ a level, r = ⟨some a, level, outer⟩ ∧ level.sum = sum ∧ level.term a = e

/-- The tokens of a sum are read so that the operand read last completes it. -/
def ReadsAsSum (e : Expr) : Prop :=
  ∀ (outer : List (Nat × Level)) (tokens : List Token),
    depth ⟨none, {}, outer⟩ < depthLimit → e.IsWrittenAs tokens →
    Reads ⟨none, {}, outer⟩ tokens e.nesting fun r =>
      ∃ a level, r = ⟨some a, level, outer⟩ ∧ level.expr a = e

theorem readsAsFactor_number (text : Text) (position : Nat) :
    (number text position).ReadsAsFactor := by
  intro level outer tokens hd hw
  obtain rfl := isWrittenAs_number.mp hw
  exact .inl ⟨hd, _, rfl, number text position, level.signs, rfl, rfl⟩

theorem readsAsFactor_dice (text : Text) (position : Nat) :
    (dice text position).ReadsAsFactor := by
  intro level outer tokens hd hw
  obtain rfl := isWrittenAs_dice.mp hw
  exact .inl ⟨hd, _, rfl, dice text position, level.signs, rfl, rfl⟩

theorem ReadsAsFactor.signed {e : Expr} (he : e.ReadsAsFactor) (s : Sign) :
    (signed s e).ReadsAsFactor := by
  intro level outer tokens _ hw
  obtain ⟨⟨_, place⟩, rest, rfl, rfl, hr⟩ := isWrittenAs_signed.mp hw
  let next : Reader := ⟨none, { level with signs := s :: level.signs }, outer⟩
  have hk : next.depth = depth ⟨none, level, outer⟩ + 1 := by
    simp only [next, depth, List.length_cons]
    omega
  exact Reads.descend rfl hk fun hd => he _ outer rest hd hr

theorem ReadsAsSum.group {e : Expr} (he : e.ReadsAsSum) : (group e).ReadsAsFactor := by
  intro level outer tokens _ hw
  obtain ⟨⟨_, place⟩, inner, u, rfl, rfl, hi, hu⟩ := isWrittenAs_group.mp hw
  let next : Reader := ⟨none, {}, (place, level) :: outer⟩
  have hk : next.depth = depth ⟨none, level, outer⟩ + 3 := by
    simp only [next, depth, List.length_cons, List.foldr_cons, List.length_nil]
    omega
  refine Reads.descend rfl hk fun hd => (he _ inner hd hi).snoc ?_
  rintro _ ⟨a, inside, rfl, ha⟩
  refine ⟨_, .closing hu, .group e, level.signs, ?_, rfl⟩
  rw [ha]

theorem ReadsAsFactor.term {e : Expr} (he : e.ReadsAsFactor) : e.ReadsAsTerm := by
  intro sum outer tokens hd hw
  refine (he _ outer tokens hd hw).imp ?_
  rintro _ ⟨a, signs, rfl, ha⟩
  exact ⟨a, _, rfl, rfl, ha⟩

theorem ReadsAsTerm.product {l r : Expr} (hl : l.ReadsAsTerm) (hr : r.ReadsAsFactor)
    (s : Scaling) : (product s l r).ReadsAsTerm := by
  intro sum outer tokens hd hw
  obtain ⟨front, t, back, rfl, hf, ht, hb⟩ := isWrittenAs_product.mp hw
  rw [List.append_cons]
  refine ((hl sum outer front hd hf).snoc (Q := (· = ⟨none, ⟨sum, some (l, s), []⟩, outer⟩))
    ?_).append ?_
  · rintro _ ⟨a, level, rfl, rfl, rfl⟩
    exact ⟨_, .product s ht, rfl⟩
  · rintro _ rfl
    refine ⟨rfl, fun hd' => (hr _ outer back hd' hb).imp ?_⟩
    rintro _ ⟨a, signs, rfl, ha⟩
    exact ⟨a, _, rfl, rfl, congrArg (Expr.product s l) ha⟩

theorem ReadsAsTerm.sum_of_term {e : Expr} (he : e.ReadsAsTerm) : e.ReadsAsSum := by
  intro outer tokens hd hw
  refine (he none outer tokens hd hw).imp ?_
  rintro _ ⟨a, level, rfl, hs, rfl⟩
  exact ⟨a, level, rfl, by rw [Level.expr, hs]⟩

theorem ReadsAsSum.sum {l r : Expr} (hl : l.ReadsAsSum) (hr : r.ReadsAsTerm) (s : Sign) :
    (sum s l r).ReadsAsSum := by
  intro outer tokens hd hw
  obtain ⟨front, t, back, rfl, hf, ht, hb⟩ := isWrittenAs_sum.mp hw
  rw [List.append_cons]
  refine ((hl outer front hd hf).snoc (Q := (· = ⟨none, { sum := some (l, s) }, outer⟩))
    ?_).append ?_
  · rintro _ ⟨a, level, rfl, rfl⟩
    exact ⟨_, .sum s ht, rfl⟩
  · rintro _ rfl
    refine ⟨rfl, fun hd' => (hr _ outer back hd' hb).imp ?_⟩
    rintro _ ⟨a, level, rfl, hs, rfl⟩
    exact ⟨a, level, rfl, by rw [Level.expr, hs]⟩

mutual

theorem IsFactor.reads : ∀ {e : Expr}, e.IsFactor → e.ReadsAsFactor
  | _, .number text position => readsAsFactor_number text position
  | _, .dice text position => readsAsFactor_dice text position
  | _, .signed s he => he.reads.signed s
  | _, .group he => he.reads.group

theorem IsTerm.reads : ∀ {e : Expr}, e.IsTerm → e.ReadsAsTerm
  | _, .factor he => he.reads.term
  | _, .product s hl hr => hl.reads.product hr.reads s

theorem IsSum.reads : ∀ {e : Expr}, e.IsSum → e.ReadsAsSum
  | _, .term he => he.reads.sum_of_term
  | _, .sum s hl hr => hl.reads.sum hr.reads s

end

end Expr

open Reader (depthLimit)

/-- The tokens of an expression are read as that expression, unless it nests too deeply. -/
theorem parse_of_isWrittenAs {tree : Expr} {tokens : List Token} (ht : tree.IsSum)
    (hw : tree.IsWrittenAs tokens) :
    parse tokens = if tree.nesting < depthLimit then .ok tree else .error .tooDeep := by
  rw [parse, if_neg hw.ne_nil]
  rcases ht.reads [] tokens (by decide) hw with ⟨hd, _, hr, a, level, rfl, ha⟩ | ⟨hd, hr⟩
  · rw [if_pos (by simpa [Reader.depth] using hd), hr, ← ha]
    rfl
  · rw [if_neg (by simpa [Reader.depth] using hd), hr]
    rfl

/-! ## What is read -/

theorem Reader.finish_eq_ok_iff {r : Reader} {tree : Expr} :
    r.finish = .ok tree ↔ ∃ e level, r = ⟨some e, level, []⟩ ∧ tree = level.expr e := by
  obtain ⟨_ | e, level, _ | ⟨o, outer⟩⟩ := r <;> simp [Reader.finish, eq_comm]

theorem parse_eq_ok_iff {tokens : List Token} {tree : Expr} :
    parse tokens = .ok tree ↔
      tokens ≠ [] ∧ ∃ e level, Reader.run {} tokens = .ok ⟨some e, level, []⟩ ∧
        tree = level.expr e := by
  unfold parse
  split
  · simp_all
  · rename_i hne
    cases hr : Reader.run {} tokens with
    | error fault => simp [Except.bind]
    | ok r => simp [Except.bind, Reader.finish_eq_ok_iff, hne]

/-- What is read is an expression of the grammar, written as the tokens. -/
theorem parse_sound {tokens : List Token} {tree : Expr} (h : parse tokens = .ok tree) :
    tree.IsSum ∧ tree.IsWrittenAs tokens := by
  obtain ⟨_, e, level, hr, rfl⟩ := parse_eq_ok_iff.mp h
  have hv := Reader.isValid_empty.run hr
  refine ⟨hv.level.isSum_expr (hv.operand e rfl), ?_⟩
  have hw : List.Forall₂ Expr.Fits _ ([] ++ tokens) := Reader.forall₂_run .nil hr
  rw [Expr.IsWrittenAs, Level.lexemes_expr]
  simpa [Reader.lexemes, Reader.outerLexemes] using hw

/-! ## What is refused -/

/-- What a token can add to the depth. -/
def Token.weight (t : Token) : Nat :=
  match t.lexeme with
  | .sign _ => 1
  | .opening => 3
  | _ => 0

/-- What some tokens can add to the depth. -/
def Token.weights (tokens : List Token) : Nat :=
  tokens.foldr (fun t n => t.weight + n) 0

namespace Reader

theorem withinLimit_eq_error {r : Reader} {fault : Fault} (h : r.withinLimit = .error fault) :
    fault = .tooDeep ∧ depthLimit ≤ r.depth := by
  unfold withinLimit at h
  split at h
  · cases h
  · cases h
    exact ⟨rfl, by omega⟩

/-- A step is refused because a token cannot stand where it does, or because it goes too deep. -/
theorem step_eq_error {r : Reader} {t : Token} {fault : Fault} (h : r.step t = .error fault) :
    (∃ cause, fault = .malformed cause) ∨
      (fault = .tooDeep ∧ depthLimit ≤ r.depth + t.weight) := by
  obtain ⟨lexeme, place⟩ := t
  obtain ⟨_ | e, level, outer⟩ := r
  · cases lexeme with
    | number text => cases h
    | dice text => cases h
    | sign s =>
      obtain ⟨hf, hd⟩ := withinLimit_eq_error h
      refine .inr ⟨hf, ?_⟩
      simp only [depth, List.length_cons, Token.weight] at hd ⊢
      omega
    | opening =>
      obtain ⟨hf, hd⟩ := withinLimit_eq_error h
      refine .inr ⟨hf, ?_⟩
      simp only [depth, List.length_cons, List.foldr_cons, List.length_nil, Token.weight] at hd ⊢
      omega
    | scaling s => cases h; exact .inl ⟨_, rfl⟩
    | closing => cases h; exact .inl ⟨_, rfl⟩
  · cases lexeme <;> rcases outer with _ | ⟨o, outer⟩ <;> cases h <;> exact .inl ⟨_, rfl⟩

/-- A token adds at most its weight to the depth. -/
theorem Step.depth_le {t : Token} {r r' : Reader} (h : Step t r r') :
    r'.depth ≤ r.depth + t.weight := by
  cases h <;> simp_all [depth, Token.weight] <;> omega

theorem run_eq_error {r : Reader} {tokens : List Token} {fault : Fault}
    (h : r.run tokens = .error fault) :
    (∃ cause, fault = .malformed cause) ∨
      (fault = .tooDeep ∧ depthLimit ≤ r.depth + Token.weights tokens) := by
  induction tokens generalizing r with
  | nil => cases h
  | cons t rest ih =>
    rw [run] at h
    have hweights : Token.weights (t :: rest) = t.weight + Token.weights rest := rfl
    cases hs : r.step t with
    | error fault' =>
      rw [hs] at h
      cases h
      rcases step_eq_error hs with hcause | ⟨hf, hd⟩
      · exact .inl hcause
      · exact .inr ⟨hf, by omega⟩
    | ok next =>
      rw [hs] at h
      have hle := (step_eq_ok_iff.mp hs).depth_le
      rcases ih h with hcause | ⟨hf, hd⟩
      · exact .inl hcause
      · exact .inr ⟨hf, by omega⟩

theorem finish_eq_error {r : Reader} {fault : Fault} (h : r.finish = .error fault) :
    ∃ cause, fault = .malformed cause := by
  obtain ⟨_ | e, level, _ | ⟨o, outer⟩⟩ := r <;> cases h <;> exact ⟨_, rfl⟩

end Reader

/-- Tokens are refused because they write nothing, or because they nest too deeply. -/
theorem parse_eq_error {tokens : List Token} {fault : Fault} (h : parse tokens = .error fault) :
    (∃ cause, fault = .malformed cause) ∨
      (fault = .tooDeep ∧ depthLimit ≤ Token.weights tokens) := by
  unfold parse at h
  split at h
  · cases h
    exact .inl ⟨_, rfl⟩
  · cases hr : Reader.run {} tokens with
    | error fault' =>
      rw [hr] at h
      cases h
      simpa [Reader.depth] using Reader.run_eq_error hr
    | ok r =>
      rw [hr] at h
      exact .inl (Reader.finish_eq_error h)

/-! ## The grammar -/

/-- **Reading accepts exactly the grammar.** An expression is read if and only if it is one of the
grammar, written as the tokens, and does not nest too deeply; one that does is refused for its
depth. Tokens that write no expression of the grammar are refused as malformed unless the limit of
depth is met first, and it is met only by tokens of so much weight. -/
theorem parse_iff_written (tokens : List Token) :
    (∀ tree, parse tokens = .ok tree ↔
      tree.IsSum ∧ tree.IsWrittenAs tokens ∧ tree.nesting < depthLimit) ∧
    (∀ tree : Expr, tree.IsSum → tree.IsWrittenAs tokens → depthLimit ≤ tree.nesting →
      parse tokens = .error .tooDeep) ∧
    ((¬∃ tree : Expr, tree.IsSum ∧ tree.IsWrittenAs tokens) → parse tokens ≠ .error .tooDeep →
      ∃ cause, parse tokens = .error (.malformed cause)) ∧
    (parse tokens = .error .tooDeep → depthLimit ≤ Token.weights tokens) := by
  refine ⟨fun tree => ⟨fun h => ?_, ?_⟩, ?_, fun hn hd => ?_, fun hd => ?_⟩
  · obtain ⟨ht, hw⟩ := parse_sound h
    refine ⟨ht, hw, ?_⟩
    by_contra hdeep
    rw [parse_of_isWrittenAs ht hw, if_neg hdeep] at h
    cases h
  · rintro ⟨ht, hw, hdepth⟩
    rw [parse_of_isWrittenAs ht hw, if_pos hdepth]
  · intro tree ht hw hdepth
    rw [parse_of_isWrittenAs ht hw, if_neg (by omega)]
  · cases h : parse tokens with
    | ok tree => exact absurd ⟨tree, parse_sound h⟩ hn
    | error fault =>
      rcases parse_eq_error h with ⟨cause, rfl⟩ | ⟨rfl, _⟩
      · exact ⟨cause, rfl⟩
      · exact absurd h hd
  · rcases parse_eq_error hd with ⟨cause, hc⟩ | ⟨_, hweight⟩
    · cases hc
    · exact hweight

end DiceBot
