import DiceBot.Proofs.Expr.Chain
import DiceBot.Proofs.Expr.Moved
import DiceBot.Proofs.Token.Cut
import DiceBot.Proofs.Token.Layout

/-!
# Runs of operators and numbers

Operators and numbers that follow one another in pairs and without a gap make a run. A run is
written in one piece; cut again, by itself or behind a leaf, it gives the same tokens, and behind a
number it is an expression.

## Main definitions

* `Token.IsRun`: pairs that follow one another without a gap
* `Token.IsLongestRun`: the longest run at the front of some tokens

## Main results

* `Token.isLongestRun_adjacentRun`: what is taken for a suffix is the longest run
* `Token.IsRun.tokens_append`: the tokens of a run behind a leaf
* `Token.IsRun.exists_parse`: a run behind a number is a plain expression
-/

namespace DiceBot

/-- Lexemes of which no two in a row are leaves are the pieces of their text. -/
theorem Text.pieces_flatMap_lexeme {ls : List Lexeme} (hp : ∀ l ∈ ls, (Piece.lexeme l).IsProper)
    (hc : ls.IsChain fun a b => a.isLeaf = true → b.isLeaf = false) :
    Text.pieces (ls.flatMap Lexeme.text) = .ok (ls.map .lexeme) := by
  have hpieces : ls.flatMap Lexeme.text = (ls.map Piece.lexeme).flatMap Piece.text := by
    rw [List.flatMap_map]
    rfl
  rw [hpieces]
  refine Text.pieces_flatMap ?_ ?_
  · rintro p hmem
    obtain ⟨l, hl, rfl⟩ := List.mem_map.mp hmem
    exact hp l hl
  · rw [List.isChain_map]
    exact hc.imp fun a b h => ⟨h, nofun⟩

theorem Text.IsLaidOut.isProper_of_mem_map {t : Text} {tokens run : List Token}
    (h : t.IsLaidOut tokens) (hrun : run ⊆ tokens) {l : Lexeme} (hl : l ∈ run.map Token.lexeme) :
    (Piece.lexeme l).IsProper := by
  obtain ⟨u, hu, rfl⟩ := List.mem_map.mp hl
  exact h.proper u (hrun hu)

theorem Expr.IsPlain.moved {e : Expr} (h : e.IsPlain) (f : Nat → Nat) : (e.moved f).IsPlain where
  leaves := by rw [leaves_moved, h.leaves, List.map_nil]
  reach := by rw [reach_moved, height_moved, h.reach]

namespace Level

/-- What has been put together at a level is plain. -/
structure IsPlain (l : Level) (e : Expr) : Prop where
  term : (l.term e).IsPlain
  sum : ∀ a s, l.sum = some (a, s) → a.IsPlain

variable {l : Level} {e : Expr}

theorem IsPlain.expr (h : l.IsPlain e) : (l.expr e).IsPlain := by
  unfold Level.expr
  split
  · exact h.term
  · rename_i a s hsum
    exact (h.sum a s hsum).sum h.term s

theorem IsPlain.scaled (h : l.IsPlain e) (s : Scaling) (n : Text) (p : Nat) :
    IsPlain { sum := l.sum, product := some (l.term e, s) } (.number n p) :=
  ⟨h.term.product (Expr.isPlain_number n p) s, h.sum⟩

theorem IsPlain.added (h : l.IsPlain e) (s : Sign) (n : Text) (p : Nat) :
    IsPlain { sum := some (l.expr e, s) } (.number n p) := by
  refine ⟨Expr.isPlain_number n p, ?_⟩
  rintro a s' hsum
  cases hsum
  exact h.expr

end Level

namespace Token

/-! ## Runs -/

/-- Operators and numbers that follow one another in pairs and without a gap from a place on. -/
inductive IsRun : (place : Nat) → List Token → Prop where
  | nil (place : Nat) : IsRun place []
  | cons {place : Nat} {operator number : Token} {rest : List Token} :
      operator.lexeme.isOperator = true → operator.position = place →
      number.lexeme.isNumber = true → number.position = operator.stop →
      IsRun number.stop rest → IsRun place (operator :: number :: rest)

/-- The longest run from a place on at the front of some tokens. -/
structure IsLongestRun (place : Nat) (following run : List Token) : Prop where
  isRun : IsRun place run
  isPrefix : run <+: following
  longest : ∀ other, IsRun place other → other <+: following → other <+: run

/-- The pairs directly behind a place come first among the tokens that follow. -/
theorem adjacentRun_isPrefix (place : Nat) (following : List Token) :
    adjacentRun place following <+: following := by
  fun_induction adjacentRun place following with
  | case1 place operator number rest h ih => simpa using ih
  | case2 | case3 => exact List.nil_prefix

theorem isRun_adjacentRun (place : Nat) (following : List Token) :
    IsRun place (adjacentRun place following) := by
  fun_induction adjacentRun place following with
  | case1 place operator number rest h ih =>
    obtain ⟨hoperator, hplace, hnumber, hadjacent⟩ := h
    exact .cons hoperator hplace hnumber hadjacent ih
  | case2 | case3 => exact .nil _

/-- What is taken from some tokens is the longest run. -/
theorem isLongestRun_adjacentRun (place : Nat) (following : List Token) :
    IsLongestRun place following (adjacentRun place following) := by
  refine ⟨isRun_adjacentRun place following, adjacentRun_isPrefix place following, ?_⟩
  intro other hrun hbegins
  induction hrun generalizing following with
  | nil => exact List.nil_prefix
  | @cons place operator number rest hoperator hplace hnumber hadjacent hrest ih =>
    obtain ⟨behind, rfl⟩ := hbegins
    rw [List.cons_append, List.cons_append, adjacentRun,
      if_pos ⟨hoperator, hplace, hnumber, hadjacent⟩]
    exact List.cons_prefix_cons.mpr ⟨rfl, List.cons_prefix_cons.mpr
      ⟨rfl, ih _ (List.prefix_append rest behind)⟩⟩

namespace IsRun

variable {place : Nat} {run : List Token} {u v : Token}

theorem isDice_eq_false (h : IsRun place run) (hu : u ∈ run) : u.lexeme.isDice = false := by
  induction h with
  | nil => cases hu
  | @cons place operator number rest hoperator _ hnumber _ _ ih =>
    rcases List.mem_cons.mp hu with rfl | hu
    · cases hlexeme : u.lexeme with
      | dice text =>
        rw [hlexeme] at hoperator
        cases hoperator
      | _ => rfl
    rcases List.mem_cons.mp hu with rfl | hu
    · cases hlexeme : u.lexeme with
      | dice text =>
        rw [hlexeme] at hnumber
        cases hnumber
      | _ => rfl
    · exact ih hu

theorem le_position (h : IsRun place run) (hu : u ∈ run) : place ≤ u.position := by
  induction h with
  | nil => cases hu
  | @cons place operator number rest _ hplace _ hadjacent _ ih =>
    have hoperator : place ≤ operator.stop := hplace ▸ Nat.le_add_right _ _
    rcases List.mem_cons.mp hu with rfl | hu
    · exact hplace.ge
    rcases List.mem_cons.mp hu with rfl | hu
    · exact hadjacent ▸ hoperator
    · have hnumber : number.position ≤ number.stop := Nat.le_add_right _ _
      exact (hoperator.trans_eq hadjacent.symm).trans (hnumber.trans (ih hu))

/-- A run reaches no further than its tokens do. -/
theorem stop_le (h : IsRun place run) {limit : Nat} (hplace : place ≤ limit)
    (hstop : ∀ u ∈ run, u.stop ≤ limit) : place + (run.flatMap text).length ≤ limit := by
  induction h with
  | nil => exact hplace
  | @cons place operator number rest _ hposition _ hadjacent _ ih =>
    obtain ⟨-, hnumber, hrest⟩ : operator.stop ≤ limit ∧ number.stop ≤ limit ∧ _ := by
      simpa only [List.forall_mem_cons] using hstop
    have hle := ih hnumber hrest
    simp only [List.flatMap_cons, List.length_append]
    simp only [stop] at hle hadjacent
    omega

/-- A run is written in one piece in a text in which its tokens stand. -/
theorem isPrefix_drop (h : IsRun place run) {t : Text}
    (hdrop : ∀ u ∈ run, t.drop u.position = u.text ++ t.drop u.stop) :
    run.flatMap text <+: t.drop place := by
  induction h with
  | nil => exact List.nil_prefix
  | @cons place operator number rest _ hposition _ hadjacent _ ih =>
    obtain ⟨hoperator, hnumber, hrest⟩ := by simpa only [List.forall_mem_cons] using hdrop
    rw [← hposition, hoperator, ← hadjacent, hnumber, List.flatMap_cons, List.flatMap_cons]
    exact (List.prefix_append_right_inj _).mpr ((List.prefix_append_right_inj _).mpr (ih hrest))

/-! ## Reading a run again -/

/-- No two leaves stand side by side in a run behind a leaf. -/
theorem isChain (h : IsRun place run) (l : Lexeme) :
    (l :: run.map lexeme).IsChain fun a b => a.isLeaf = true → b.isLeaf = false := by
  induction h generalizing l with
  | nil => exact .singleton l
  | @cons place operator number rest hoperator _ _ _ _ ih =>
    have hleaf : operator.lexeme.isLeaf = false := by
      rcases isOperator_eq_true_iff.mp hoperator with ⟨s, hs⟩ | ⟨s, hs⟩
      · rw [hs]; rfl
      · rw [hs]; rfl
    refine List.isChain_cons_cons.mpr ⟨fun _ => hleaf, ?_⟩
    refine List.isChain_cons_cons.mpr ⟨?_, ih number.lexeme⟩
    rw [hleaf]
    exact nofun

/-- The tokens of a run that is written at another place. -/
theorem placed_map_lexeme (h : IsRun place run) (start : Nat) :
    placed start ((run.map lexeme).map .lexeme) = run.map (moved fun p => p - place + start) := by
  induction h generalizing start with
  | nil => rfl
  | @cons place operator number rest _ hposition _ hadjacent hrest ih =>
    obtain ⟨mark, position⟩ := operator
    obtain ⟨numeral, behind⟩ := number
    obtain rfl : position = place := hposition
    obtain rfl : behind = position + mark.text.length := hadjacent
    have hmoved : rest.map (moved fun p =>
        p - stop ⟨numeral, position + mark.text.length⟩ +
          (start + mark.text.length + numeral.text.length)) =
        rest.map (moved fun p => p - position + start) := by
      refine List.map_congr_left fun u hu => congrArg (Token.mk u.lexeme) ?_
      have hle := hrest.le_position hu
      simp only [stop, text] at hle ⊢
      omega
    have hrest := (ih _).trans hmoved
    simp only [List.map_cons, placed, hrest, moved]
    congr 2
    · omega
    · congr 1
      omega

/-- A run is cut into its lexemes again. -/
theorem pieces_flatMap (h : IsRun place run)
    (hproper : ∀ m ∈ run.map lexeme, (Piece.lexeme m).IsProper) :
    Text.pieces (run.flatMap text) = .ok ((run.map lexeme).map .lexeme) := by
  have htext : run.flatMap text = (run.map lexeme).flatMap Lexeme.text := by
    rw [List.flatMap_map]
    rfl
  rw [htext]
  exact Text.pieces_flatMap_lexeme hproper (h.isChain .opening).tail

/-- A run behind a leaf is cut into its lexemes again. -/
theorem pieces_append (h : IsRun place run) {l : Lexeme}
    (hproper : ∀ m ∈ l :: run.map lexeme, (Piece.lexeme m).IsProper) :
    (l.text ++ run.flatMap text).pieces = .ok ((l :: run.map lexeme).map .lexeme) := by
  have htext : l.text ++ run.flatMap text = (l :: run.map lexeme).flatMap Lexeme.text := by
    rw [List.flatMap_cons, List.flatMap_map]
    rfl
  rw [htext]
  exact Text.pieces_flatMap_lexeme hproper (h.isChain l)

theorem tokens_append (h : IsRun place run) {l : Lexeme}
    (hproper : ∀ m ∈ l :: run.map lexeme, (Piece.lexeme m).IsProper) :
    (l.text ++ run.flatMap text).tokens =
      .ok (⟨l, 0⟩ :: run.map (moved fun p => p - place + l.text.length)) := by
  rw [Text.tokens, h.pieces_append hproper]
  change Except.ok (⟨l, 0⟩ :: placed (0 + l.text.length) _) = _
  rw [Nat.zero_add, h.placed_map_lexeme]

/-- Behind an operand a run is read to its end, and what is read is plain if it was before. -/
theorem exists_run (h : IsRun place run) {e : Expr} {level : Level}
    (hplain : level.IsPlain e) :
    ∃ e' level', Reader.run ⟨some e, level, []⟩ run = .ok ⟨some e', level', []⟩ ∧
      (level'.expr e').IsPlain := by
  induction h generalizing e level with
  | nil => exact ⟨e, level, rfl, hplain.expr⟩
  | @cons place operator number rest hoperator _ hnumber _ _ ih =>
    obtain ⟨n, hn⟩ := isNumber_eq_true_iff.mp hnumber
    rw [hn]
    rcases isOperator_eq_true_iff.mp hoperator with ⟨s, hs⟩ | ⟨s, hs⟩
    · rw [hs]
      exact ih (hplain.added s n number.position)
    · rw [hs]
      exact ih (hplain.scaled s n number.position)

/-- A run behind a number is a plain expression. -/
theorem exists_parse (h : IsRun place run) (n : Text) (position : Nat) :
    ∃ e, parse (⟨.number n, position⟩ :: run) = .ok e ∧ e.IsPlain := by
  have hnumber : Level.IsPlain {} (.number n position) := ⟨Expr.isPlain_number n position, nofun⟩
  obtain ⟨e, level, hrun, hplain⟩ := h.exists_run hnumber
  exact ⟨_, parse_eq_ok_iff.mpr ⟨List.cons_ne_nil _ _, e, level, hrun, rfl⟩, hplain⟩

end IsRun

end Token

end DiceBot
