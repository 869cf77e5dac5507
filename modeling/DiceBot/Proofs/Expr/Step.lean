import DiceBot.Expr.Parser
import DiceBot.Proofs.Expr.Written
import DiceBot.Proofs.Token.Proper

/-!
# Steps of the reader

What one token does to the reader of expressions. A token that is read goes behind what was read
before, and the operands that wait keep the precedences of the grammar; these two invariants make
the tree that is read in the end the right one.

## Main definitions

* `Reader.Step`: the tokens that a reader accepts, each with the reader after it
* `Reader.lexemes`: what has been read, from left to right
* `Reader.IsValid`: the waiting operands keep the precedences

## Main results

* `Reader.step_eq_ok_iff`: a step of the reader is one of the seven
* `Reader.forall₂_run`, `Reader.IsValid.run`: the invariants hold after any number of tokens
* `Reader.isChain_run`: no leaf is read directly behind another
-/

namespace DiceBot

namespace Reader

/-- The reader after a token that it accepts: a leaf, a sign or a parenthesis where an operand is
expected, and an operator or a parenthesis behind one. -/
inductive Step (t : Token) : Reader → Reader → Prop where
  | number {level outer} (text : Text) : t.lexeme = .number text →
      Step t ⟨none, level, outer⟩ ⟨some (.number text t.position), level, outer⟩
  | dice {level outer} (text : Text) : t.lexeme = .dice text →
      Step t ⟨none, level, outer⟩ ⟨some (.dice text t.position), level, outer⟩
  | signed {level : Level} {outer} (s : Sign) : t.lexeme = .sign s →
      depth ⟨none, { level with signs := s :: level.signs }, outer⟩ < depthLimit →
      Step t ⟨none, level, outer⟩ ⟨none, { level with signs := s :: level.signs }, outer⟩
  | opening {level outer} : t.lexeme = .opening →
      depth ⟨none, {}, (t.position, level) :: outer⟩ < depthLimit →
      Step t ⟨none, level, outer⟩ ⟨none, {}, (t.position, level) :: outer⟩
  | sum {e : Expr} {level : Level} {outer} (s : Sign) : t.lexeme = .sign s →
      Step t ⟨some e, level, outer⟩ ⟨none, { sum := some (level.expr e, s) }, outer⟩
  | product {e : Expr} {level : Level} {outer} (s : Scaling) : t.lexeme = .scaling s →
      Step t ⟨some e, level, outer⟩
        ⟨none, { sum := level.sum, product := some (level.term e, s) }, outer⟩
  | closing {e : Expr} {level around : Level} {place outer} : t.lexeme = .closing →
      Step t ⟨some e, level, (place, around) :: outer⟩
        ⟨some (.group (level.expr e)), around, outer⟩

theorem withinLimit_eq_ok_iff {r r' : Reader} :
    r.withinLimit = .ok r' ↔ r.depth < depthLimit ∧ r = r' := by
  by_cases hd : r.depth < depthLimit <;> simp [withinLimit, hd]

/-- A step of the reader is one of the seven. -/
theorem step_eq_ok_iff {r r' : Reader} {t : Token} : r.step t = .ok r' ↔ Step t r r' := by
  obtain ⟨lexeme, place⟩ := t
  constructor
  · intro h
    obtain ⟨_ | e, level, outer⟩ := r
    · cases lexeme with
      | number text =>
        cases h
        exact .number text rfl
      | dice text =>
        cases h
        exact .dice text rfl
      | sign s =>
        obtain ⟨hd, rfl⟩ := withinLimit_eq_ok_iff.mp h
        exact .signed s rfl hd
      | opening =>
        obtain ⟨hd, rfl⟩ := withinLimit_eq_ok_iff.mp h
        exact .opening (t := ⟨.opening, place⟩) rfl hd
      | scaling s => cases h
      | closing => cases h
    · cases lexeme with
      | sign s =>
        cases h
        exact .sum s rfl
      | scaling s =>
        cases h
        exact .product s rfl
      | closing =>
        cases outer with
        | nil => cases h
        | cons o outer =>
          cases h
          exact .closing rfl
      | number text => cases outer <;> cases h
      | dice text => cases outer <;> cases h
      | opening => cases outer <;> cases h
  · intro h
    cases h with
    | number text ht => cases ht; rfl
    | dice text ht => cases ht; rfl
    | signed s ht hd => cases ht; exact withinLimit_eq_ok_iff.mpr ⟨hd, rfl⟩
    | opening ht hd => cases ht; exact withinLimit_eq_ok_iff.mpr ⟨hd, rfl⟩
    | sum s ht => cases ht; rfl
    | product s ht => cases ht; rfl
    | closing ht => cases ht; rfl

theorem run_cons_eq_ok_iff {r r' : Reader} {t : Token} {rest : List Token} :
    r.run (t :: rest) = .ok r' ↔ ∃ next, Step t r next ∧ next.run rest = .ok r' := by
  simp only [← step_eq_ok_iff, run]
  cases r.step t with
  | error fault => simp
  | ok next => simp

end Reader

/-! ## What has been read -/

namespace Level

/-- What waits before the operand, from left to right. -/
def lexemes (l : Level) : List (Lexeme × Option Nat) :=
  (match l.sum with
    | none => []
    | some (e, s) => e.lexemes ++ [(.sign s, none)]) ++
  (match l.product with
    | none => []
    | some (e, s) => e.lexemes ++ [(.scaling s, none)]) ++
  l.signs.reverse.map fun s => (.sign s, none)

theorem lexemes_factor (l : Level) (e : Expr) :
    (l.factor e).lexemes = l.signs.reverse.map (fun s => (.sign s, none)) ++ e.lexemes := by
  obtain ⟨sum, product, signs⟩ := l
  induction signs generalizing e with
  | nil => rfl
  | cons s signs ih => simpa [factor, Expr.lexemes] using ih (.signed s e)

/-- The expression that an operand completes is written as what waits and the operand. -/
theorem lexemes_expr (l : Level) (e : Expr) : (l.expr e).lexemes = l.lexemes ++ e.lexemes := by
  have hf := lexemes_factor l e
  obtain ⟨_ | ⟨a, s⟩, _ | ⟨b, p⟩, signs⟩ := l <;>
    simp_all [expr, term, lexemes, Expr.lexemes]

theorem lexemes_term (l : Level) (e : Expr) :
    ({ l with sum := none } : Level).lexemes ++ e.lexemes = (l.term e).lexemes :=
  (lexemes_expr { l with sum := none } e).symm

end Level

namespace Reader

/-- What has been read outside the innermost parentheses. -/
def outerLexemes : List (Nat × Level) → List (Lexeme × Option Nat)
  | [] => []
  | (_, around) :: outer => outerLexemes outer ++ around.lexemes ++ [(.opening, none)]

/-- What has been read, from left to right. -/
def lexemes (r : Reader) : List (Lexeme × Option Nat) :=
  outerLexemes r.outer ++ r.level.lexemes ++ r.operand.elim [] Expr.lexemes

/-- A token that is read goes behind what was read before. -/
theorem Step.lexemes {t : Token} {r r' : Reader} (h : Step t r r') :
    ∃ wanted, r'.lexemes = r.lexemes ++ [wanted] ∧ Expr.Fits wanted t := by
  cases h with
  | number text ht =>
    refine ⟨(.number text, some t.position), by simp [Reader.lexemes, Expr.lexemes], ?_⟩
    rw [Expr.fits_leaf, ← ht]
  | dice text ht =>
    refine ⟨(.dice text, some t.position), by simp [Reader.lexemes, Expr.lexemes], ?_⟩
    rw [Expr.fits_leaf, ← ht]
  | signed s ht =>
    exact ⟨(.sign s, none), by simp [Reader.lexemes, Level.lexemes], Expr.fits_mark.mpr ht⟩
  | opening ht =>
    exact ⟨(.opening, none), by simp [Reader.lexemes, Level.lexemes, outerLexemes],
      Expr.fits_mark.mpr ht⟩
  | sum s ht =>
    refine ⟨(.sign s, none), ?_, Expr.fits_mark.mpr ht⟩
    simp [Reader.lexemes, Level.lexemes_expr, Level.lexemes]
  | @product e level outer s ht =>
    refine ⟨(.scaling s, none), ?_, Expr.fits_mark.mpr ht⟩
    simp [Reader.lexemes, ← Level.lexemes_term, Level.lexemes]
  | closing ht =>
    refine ⟨(.closing, none), ?_, Expr.fits_mark.mpr ht⟩
    simp [Reader.lexemes, Level.lexemes_expr, outerLexemes, Expr.lexemes]

/-- What is read from some tokens is written as these tokens. -/
theorem forall₂_run {r r' : Reader} {front tokens : List Token}
    (hr : List.Forall₂ Expr.Fits r.lexemes front) (h : r.run tokens = .ok r') :
    List.Forall₂ Expr.Fits r'.lexemes (front ++ tokens) := by
  -- the token that is read moves from the tokens to come to those in front
  induction tokens generalizing r front with
  | nil =>
    cases h
    simpa using hr
  | cons t rest ih =>
    obtain ⟨next, hs, hn⟩ := run_cons_eq_ok_iff.mp h
    obtain ⟨wanted, hw, hf⟩ := hs.lexemes
    have hnext : List.Forall₂ Expr.Fits next.lexemes (front ++ [t]) := by
      rw [hw]
      exact List.rel_append hr (.cons hf .nil)
    simpa using ih hnext hn

end Reader

/-! ## The precedences -/

/-- The operands that wait keep the precedences. -/
structure Level.IsValid (l : Level) : Prop where
  sum : ∀ e s, l.sum = some (e, s) → e.IsSum
  product : ∀ e s, l.product = some (e, s) → e.IsTerm

namespace Level

theorem isValid_empty : ({} : Level).IsValid :=
  ⟨by simp, by simp⟩

theorem isFactor_factor (l : Level) {e : Expr} (he : e.IsFactor) : (l.factor e).IsFactor := by
  obtain ⟨sum, product, signs⟩ := l
  induction signs generalizing e with
  | nil => exact he
  | cons s signs ih => exact ih (.signed s he)

theorem IsValid.isTerm_term {l : Level} (h : l.IsValid) {e : Expr} (he : e.IsFactor) :
    (l.term e).IsTerm := by
  have hf := l.isFactor_factor he
  unfold term
  split
  · exact .factor hf
  · rename_i left s hp
    exact .product s (h.product left s hp) hf

theorem IsValid.isSum_expr {l : Level} (h : l.IsValid) {e : Expr} (he : e.IsFactor) :
    (l.expr e).IsSum := by
  have ht := h.isTerm_term he
  unfold expr
  split
  · exact .term ht
  · rename_i left s hs
    exact .sum s (h.sum left s hs) ht

end Level

namespace Reader

/-- What waits keeps the precedences at every level, and the operand is a factor. -/
structure IsValid (r : Reader) : Prop where
  operand : ∀ e ∈ r.operand, e.IsFactor
  level : r.level.IsValid
  outer : ∀ o ∈ r.outer, o.2.IsValid

theorem isValid_empty : ({} : Reader).IsValid :=
  ⟨by simp, Level.isValid_empty, by simp⟩

/-- One token keeps the precedences. -/
theorem Step.isValid {t : Token} {r r' : Reader} (h : Step t r r') (hr : r.IsValid) :
    r'.IsValid := by
  obtain ⟨ho, hl, hout⟩ := hr
  cases h with
  | number text => exact ⟨by simpa using .number text t.position, hl, hout⟩
  | dice text => exact ⟨by simpa using .dice text t.position, hl, hout⟩
  | signed s => exact ⟨by simp, ⟨hl.sum, hl.product⟩, hout⟩
  | opening =>
    refine ⟨by simp, Level.isValid_empty, ?_⟩
    rintro o (_ | ⟨_, ho⟩)
    · exact hl
    · exact hout o ho
  | @sum e level outer s =>
    have he : (level.expr e).IsSum := hl.isSum_expr (ho e rfl)
    refine ⟨by simp, ⟨?_, by simp⟩, hout⟩
    intro a s' ha
    cases ha
    exact he
  | @product e level outer s =>
    have he : (level.term e).IsTerm := hl.isTerm_term (ho e rfl)
    refine ⟨by simp, ⟨hl.sum, ?_⟩, hout⟩
    intro a s' ha
    cases ha
    exact he
  | @closing e level around place outer =>
    have he : (level.expr e).IsSum := hl.isSum_expr (ho e rfl)
    refine ⟨by simpa using .group he, hout (place, around) (by simp), ?_⟩
    exact fun o ho => hout o (by simp [ho])

/-- Any number of tokens keeps the precedences. -/
theorem IsValid.run {r r' : Reader} {tokens : List Token} (hr : r.IsValid)
    (h : r.run tokens = .ok r') : r'.IsValid := by
  induction tokens generalizing r with
  | nil =>
    cases h
    exact hr
  | cons t rest ih =>
    obtain ⟨next, hs, hn⟩ := run_cons_eq_ok_iff.mp h
    exact ih (hs.isValid hr) hn

/-! ## Leaves -/

theorem Step.operand_of_isLeaf {t : Token} {r r' : Reader} (h : Step t r r')
    (ht : t.lexeme.isLeaf = true) : r.operand = none ∧ r'.operand ≠ none := by
  obtain ⟨lexeme, position⟩ := t
  cases lexeme with
  | number text => cases h <;> simp_all
  | dice text => cases h <;> simp_all
  | _ => cases ht

/-- No leaf is read directly behind another. -/
theorem isChain_run {r r' : Reader} {tokens : List Token} (h : r.run tokens = .ok r') :
    tokens.IsChain fun t u => t.lexeme.isLeaf = true → u.lexeme.isLeaf = false := by
  induction tokens generalizing r with
  | nil => exact .nil
  | cons t rest ih =>
    obtain ⟨next, hs, hn⟩ := run_cons_eq_ok_iff.mp h
    refine List.isChain_cons.mpr ⟨fun u hu ht => ?_, ih hn⟩
    obtain ⟨tail, rfl⟩ := List.head?_eq_some_iff.mp hu
    obtain ⟨last, hs', _⟩ := run_cons_eq_ok_iff.mp hn
    by_contra hleaf
    exact (hs.operand_of_isLeaf ht).2 (hs'.operand_of_isLeaf (by simpa using hleaf)).1

end Reader

end DiceBot
