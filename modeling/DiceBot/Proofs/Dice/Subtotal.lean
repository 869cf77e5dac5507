import DiceBot.Proofs.Dice.Boundary
import DiceBot.Proofs.Dice.Flattening
import DiceBot.Proofs.Dice.Play
import DiceBot.Proofs.Dice.Run

/-!
# Subtotals

A trace shows for every roll a subtotal: the total of the roll and the arithmetic written directly
behind its term, evaluated by themselves. The arithmetic was read and evaluated as a part of the
command before, so that reading it again meets no fault, and no zero to divide by. But taken out of
the command its value may be too large for a double where that of the command is not. And there is
less room for it than there was for the command: an arithmetic that just fitted there is too deep
here. A command that was rolled can be shown in all other cases.

## Main definitions

* `Roll.amount`: the total of a roll with the arithmetic behind its term carried out
* `Roll.IsShallow`: there is room for the subtotal of a roll

## Main results

* `Roll.subtotal_eq`: the subtotal of a roll of a command
* `Outcome.exists_trace_iff`: which outcomes have a trace
-/

namespace DiceBot

/-! ## Rolls and their tokens -/

/-- A dice term is read where an operand is expected. -/
theorem Reader.exists_of_step_dice {text : Text} {position : Nat} {r r' : Reader}
    (h : Step ⟨.dice text, position⟩ r r') :
    ∃ level outer, r' = ⟨some (.dice text position), level, outer⟩ := by
  cases h with
  | dice _ hlexeme =>
    cases hlexeme
    exact ⟨_, _, rfl⟩
  | number _ hlexeme | signed _ hlexeme | opening hlexeme | sum _ hlexeme
  | product _ hlexeme | closing hlexeme => nomatch hlexeme

/-- A roll of a command, with the tokens in front of its dice term and behind it. -/
structure Plan.Rolls (plan : Plan) (r : Roll) (front : List Token) (t : Token)
    (following : List Token) : Prop where
  tokens : placed 0 plan.pieces = front ++ t :: following
  isDice : t.lexeme.isDice = true
  text : r.text = t.text
  place : r.place = (t.position : Int)
  suffix : r.suffix = t.suffix following
  total : 0 ≤ r.total

theorem Plan.exists_rolls {t : Text} {plan : Plan} (h : ofText t = .ok plan) {shaker : Shaker}
    {index : Nat} {r : Roll} (hr : r ∈ DiceTerm.rollAll shaker index plan.terms) :
    ∃ front u following, plan.Rolls r front u following := by
  obtain ⟨-, -, -, hterms⟩ := ofText_eq_ok_iff.mp h
  obtain ⟨term, hterm, first, rfl⟩ :=
    exists_of_mem_right (DiceTerm.forall₂_rollAll shaker index plan.terms) hr
  obtain ⟨⟨u, following⟩, hmem, hu⟩ := exists_of_mem_right (mapM_eq_ok_iff.mp hterms) hterm
  obtain ⟨base, hbase, hsuffix⟩ := bind_eq_ok_iff.mp hu
  cases hsuffix
  obtain ⟨parts, hparts⟩ := DiceTerm.ofText_eq_ok hbase
  obtain ⟨-, htext, hposition, -⟩ := DiceTerm.ofParts_eq_ok hparts
  obtain ⟨front, htokens⟩ := Token.exists_append_of_mem_diceAmong hmem
  have hdice : u ∈ (placed 0 plan.pieces).filter (·.lexeme.isDice) := by
    rw [← Token.map_fst_diceAmong]
    exact List.mem_map_of_mem hmem
  exact ⟨front, u, following, htokens, (List.mem_filter.mp hdice).2, htext,
    congrArg _ hposition, rfl, DiceTerm.total_nonneg _ shaker first⟩

/-! ## The subtotal -/

namespace Roll

/-- The total of a roll with the arithmetic behind its term carried out in doubles: scalings before
signs, and both from the left. -/
def amount (r : Roll) : Float :=
  Lexeme.chained none (Decimal.toFloat false ⟨r.total.natAbs, 0⟩)
    ((r.suffix.tokens.toOption.getD []).map Token.lexeme)

/-- What the subtotal of a roll evaluates is no higher than there is room for. -/
def IsShallow (r : Roll) : Prop :=
  ∃ e, (Text.natural r.total.natAbs ++ r.suffix).expr = .ok e ∧ e.height ≤ room - 2

end Roll

namespace Plan.Rolls

variable {t : Text} {plan : Plan} {r : Roll} {front following : List Token} {u : Token}

/-- The lexemes directly behind the dice term of a roll. -/
abbrev behind (u : Token) (following : List Token) : List Lexeme :=
  (Token.adjacentRun u.stop following).map Token.lexeme

/-- The arithmetic behind a term, and also behind a numeral, is cut into its lexemes. -/
theorem pieces_behind (h : ofText t = .ok plan) (hr : plan.Rolls r front u following) (n : Nat) :
    r.suffix.pieces = .ok ((behind u following).map .lexeme) ∧
      (Text.natural n ++ r.suffix).pieces =
        .ok ((.number (.natural n) :: behind u following).map .lexeme) := by
  obtain ⟨hpieces, -, -, -⟩ := ofText_eq_ok_iff.mp h
  have hrun := Token.isRun_adjacentRun u.stop following
  have hsubset : Token.adjacentRun u.stop following ⊆ placed 0 plan.pieces := by
    rw [hr.tokens]
    intro v hv
    have hfollowing := (Token.adjacentRun_isPrefix u.stop following).subset hv
    exact List.mem_append_right _ (List.mem_cons_of_mem _ hfollowing)
  have hproper : ∀ l ∈ behind u following, (Piece.lexeme l).IsProper := by
    intro l hl
    exact (Text.isLaidOut_of_pieces hpieces).isProper_of_mem_map hsubset hl
  have hnumber : ∀ l ∈ .number (.natural n) :: behind u following, (Piece.lexeme l).IsProper :=
    List.forall_mem_cons.mpr ⟨.whole (Text.isDigits_natural n), hproper⟩
  rw [hr.suffix, Token.suffix]
  exact ⟨hrun.pieces_flatMap hproper, hrun.pieces_append hnumber⟩

/-- The total of a roll and the arithmetic behind its term are read as an expression of that
amount, no higher than the command. -/
theorem exists_worth (h : ofText t = .ok plan) (hr : plan.Rolls r front u following)
    {total : Nat → Option Int} {limit : Nat} {x : Float}
    (hx : plan.tree.finiteValue total limit = .ok x) :
    ∃ e, (Text.natural r.total.natAbs ++ r.suffix).expr = .ok e ∧ e.Worth r.amount ∧
      e.height ≤ plan.tree.height := by
  obtain ⟨hpieces, htree, -, -⟩ := ofText_eq_ok_iff.mp h
  obtain ⟨y, hy, -⟩ := bind_eq_ok_iff.mp hx
  obtain ⟨-, a, level, hrun, htree⟩ := parse_eq_ok_iff.mp htree
  obtain ⟨hsuffix, htext⟩ := hr.pieces_behind h r.total.natAbs
  have hlexemes := map_lexeme_placed (Text.natural r.total.natAbs).length (behind u following)
  rw [hr.tokens, Reader.run_append] at hrun
  obtain ⟨before, -, hrun⟩ := bind_eq_ok_iff.mp hrun
  obtain ⟨next, hstep, hrun⟩ := Reader.run_cons_eq_ok_iff.mp hrun
  obtain ⟨text, hu⟩ := Token.exists_dice_of_isDice hr.isDice
  rw [hu] at hstep
  obtain ⟨around, outer, rfl⟩ := Reader.exists_of_step_dice hstep
  have hmirrors : Level.Mirrors {} (.number (.natural r.total.natAbs) 0) around
      (.dice text u.position) none (Decimal.toFloat false ⟨r.total.natAbs, 0⟩) := by
    refine ⟨?_, ?_, .inl ⟨rfl, rfl⟩⟩
    · have hworth := Expr.worth_number (.natural r.total.natAbs) 0
      rwa [Text.readNumber_of_digits (Text.isDigits_natural _).2, Text.digitsValue_natural]
        at hworth
    · rw [around.height_term]
      exact Level.le_heightOfTerm
  obtain ⟨b, inner, hrun', hworth, hle⟩ := Reader.exists_worth_of_adjacentRun u.stop hmirrors hrun
    (Reader.finish_eq_ok_iff.mpr ⟨a, level, rfl, htree⟩) hy hlexemes
  refine ⟨inner.expr b, ?_, ?_, hle⟩
  · rw [Text.expr, Text.tokens, htext]
    refine parse_eq_ok_iff.mpr ⟨List.cons_ne_nil _ _, b, inner, ?_, rfl⟩
    simp only [List.map_cons, placed, Nat.zero_add]
    exact hrun'
  · have hamount : r.amount = Lexeme.chained none
        (Decimal.toFloat false ⟨r.total.natAbs, 0⟩) (behind u following) := by
      rw [Roll.amount, Text.tokens, hsuffix]
      exact congrArg _ (map_lexeme_placed 0 _)
    rw [hamount, ← hlexemes]
    exact hworth

/-- The subtotal of a roll of a command is its amount, which has to be finite, provided that there
is room for it. -/
theorem subtotal_eq (h : ofText t = .ok plan) (hr : plan.Rolls r front u following)
    {total : Nat → Option Int} {limit : Nat} {x : Float}
    (hx : plan.tree.finiteValue total limit = .ok x) (hwritable : r.IsWritable) :
    (r.IsShallow → r.subtotal =
      if r.amount.isFinite then .ok r.amount else .error (.unevaluable .notFinite)) ∧
    (¬ r.IsShallow → r.subtotal = .error .tooDeep) := by
  obtain ⟨e, he, hworth, -⟩ := hr.exists_worth h hx
  have htotal : Text.writeInteger r.total = .ok (.natural r.total.natAbs) := by
    obtain ⟨n, hn⟩ := Int.eq_ofNat_of_zero_le hr.total
    obtain ⟨w, hw⟩ := Text.exists_writeInteger_eq_ok_iff.mpr hwritable.total
    rw [hn] at hw ⊢
    rw [hw, Text.writeInteger_natCast hw, Int.natAbs_natCast]
  have hsubtotal : r.subtotal =
      if e.height ≤ Roll.room - 2 then e.unrolledValue e.height else .error .tooDeep := by
    rw [Roll.subtotal, htotal]
    exact hworth.valueWithin_eq he Roll.room
  rw [hworth.unrolledValue] at hsubtotal
  refine ⟨fun ⟨e', he', hheight⟩ => ?_, fun hdeep => ?_⟩
  · cases he.symm.trans he'
    rw [hsubtotal, if_pos hheight]
  · rw [hsubtotal, if_neg fun hheight => hdeep ⟨e, he, hheight⟩]

end Plan.Rolls

/-! ## Which outcomes are shown -/

namespace Roll

variable {r : Roll}

theorem exists_dieText (hwritable : r.IsWritable) : ∃ dice, r.values.mapM dieText = .ok dice := by
  refine exists_mapM_eq_ok_iff.mpr fun v hv => ?_
  have hlt := hwritable.values v hv
  unfold dieText
  split
  · obtain ⟨n, hn⟩ := Text.exists_writeInteger_eq_ok_iff.mpr ((Int.natAbs_neg v).symm ▸ hlt)
    exact ⟨_, bind_eq_ok_iff.mpr ⟨n, hn, rfl⟩⟩
  · exact Text.exists_writeInteger_eq_ok_iff.mpr hlt

/-- A roll whose dice are written has a line if it has a subtotal, and no line otherwise. -/
theorem line_of_subtotal (hwritable : r.IsWritable) :
    (∀ x, r.subtotal = .ok x → ∃ text, r.line = .ok text) ∧
      ∀ fault, r.subtotal = .error fault → r.line = .error fault := by
  obtain ⟨dice, hdice⟩ := exists_dieText hwritable
  refine ⟨fun x hx => ?_, fun fault hfault => ?_⟩
  · exact ⟨_, bind_eq_ok_iff.mpr ⟨dice, hdice, bind_eq_ok_iff.mpr ⟨x, hx, rfl⟩⟩⟩
  · exact bind_eq_error_iff.mpr (.inr ⟨dice, hdice, bind_eq_error_iff.mpr (.inl hfault)⟩)

end Roll

namespace Outcome

variable {t : Text} {shaker : Shaker} {index : Nat} {o : Outcome}

/-- A roll of an outcome has a line exactly if its amount is finite and there is room for it. -/
theorem line_of_mem_rolls (h : (t.rolled shaker index).1 = .ok o) {r : Roll} (hr : r ∈ o.rolls) :
    (r.IsShallow ∧ r.amount.isFinite = true ∧ ∃ text, r.line = .ok text) ∨
      (r.amount.isFinite = false ∧ r.line = .error (.unevaluable .notFinite)) ∨
        ¬ r.IsShallow ∧ r.line = .error .tooDeep := by
  have hwritable := Text.isWritable_of_rolled h r hr
  obtain ⟨hline, hnoline⟩ := Roll.line_of_subtotal hwritable
  obtain ⟨plan, written, hplan, hrolls, -, hvalue, -, -⟩ := Plan.exists_of_rolled h
  obtain ⟨front, u, following, hu⟩ := Plan.exists_rolls hplan (hrolls ▸ hr)
  obtain ⟨hshallow, hdeep⟩ := hu.subtotal_eq hplan hvalue hwritable
  by_cases hroom : r.IsShallow
  · have hsubtotal := hshallow hroom
    cases hfinite : r.amount.isFinite with
    | true =>
      rw [hfinite] at hsubtotal
      exact .inl ⟨hroom, rfl, hline _ hsubtotal⟩
    | false =>
      rw [hfinite] at hsubtotal
      exact .inr (.inl ⟨rfl, hnoline _ hsubtotal⟩)
  · exact .inr (.inr ⟨hroom, hnoline _ (hdeep hroom)⟩)

/-- A command that leaves some room is shown in no less. -/
theorem isShallow_of_height_le (h : (t.rolled shaker index).1 = .ok o) {e : Expr}
    (he : (Plan.command t).expr = .ok e) (hheight : e.height ≤ Roll.room - 2) :
    ∀ r ∈ o.rolls, r.IsShallow := by
  intro r hr
  obtain ⟨plan, written, hplan, hrolls, -, hvalue, -, -⟩ := Plan.exists_of_rolled h
  obtain ⟨front, u, following, hu⟩ := Plan.exists_rolls hplan (hrolls ▸ hr)
  obtain ⟨e', he', -, hle⟩ := hu.exists_worth hplan hvalue
  obtain ⟨hpieces, htree, -, -⟩ := Plan.ofText_eq_ok_iff.mp hplan
  rw [Text.expr, Text.tokens, hpieces] at he
  cases htree.symm.trans he
  exact ⟨e', he', hle.trans hheight⟩

/-- **What has been rolled can be shown exactly if there is room for all its subtotals and they are
finite.** If the total of some roll and the arithmetic directly behind its term, carried out by
themselves, leave the range of doubles, or are too deep to be evaluated for the trace, then the
trace is refused for that. It is never refused for anything else, and for depth only where the
command itself leaves less room than a trace takes. -/
theorem exists_trace_iff (h : (t.rolled shaker index).1 = .ok o) :
    ((∃ text, o.trace = .ok text) ↔ ∀ r ∈ o.rolls, r.IsShallow ∧ r.amount.isFinite = true) ∧
    (∀ fault, o.trace = .error fault →
      (fault = .unevaluable .notFinite ∧ ∃ r ∈ o.rolls, r.amount.isFinite = false) ∨
        fault = .tooDeep ∧ ∃ r ∈ o.rolls, ¬ r.IsShallow) ∧
    ∀ e, (Plan.command t).expr = .ok e → e.height ≤ Roll.room - 2 →
      ∀ r ∈ o.rolls, r.IsShallow := by
  have hmem : ∀ r, r ∈ o.ordered ↔ r ∈ o.rolls := fun r => List.mem_mergeSort
  refine ⟨?_, fun fault hfault => ?_, fun e he => isShallow_of_height_le h he⟩
  · have hlines : (∃ text, o.trace = .ok text) ↔ ∃ lines, o.ordered.mapM Roll.line = .ok lines :=
      exists_bind_pure_eq_ok_iff
    rw [hlines, exists_mapM_eq_ok_iff]
    simp only [hmem]
    refine forall₂_congr fun r hr => ?_
    rcases line_of_mem_rolls h hr with
      ⟨hshallow, hfinite, hline⟩ | ⟨hfinite, hline⟩ | ⟨hdeep, hline⟩
    · exact iff_of_true hline ⟨hshallow, hfinite⟩
    · refine iff_of_false ?_ (by simp [hfinite])
      rw [hline]
      nofun
    · refine iff_of_false ?_ fun hshown => hdeep hshown.1
      rw [hline]
      nofun
  · obtain ⟨front, r, back, hsplit, -, hline⟩ :=
      mapM_eq_error_iff.mp (bind_pure_eq_error_iff.mp hfault)
    have hr : r ∈ o.rolls := (hmem r).mp (hsplit ▸ List.mem_append_right _ List.mem_cons_self)
    rcases line_of_mem_rolls h hr with ⟨-, -, text, hok⟩ | ⟨hfinite, herror⟩ | ⟨hdeep, herror⟩
    · cases hok.symm.trans hline
    · cases herror.symm.trans hline
      exact .inl ⟨rfl, r, hr, hfinite⟩
    · cases herror.symm.trans hline
      exact .inr ⟨rfl, r, hr, hdeep⟩

theorem exists_trace_of_command :
    ∃ o, (Text.rolled "2d6*2+3 - 1/d4" (.ofStream id) 0).1 = .ok o ∧
      ∃ text, o.trace = .ok text := by
  have hfinite : ((Text.rolled "2d6*2+3 - 1/d4" (.ofStream id) 0).1 >>= fun o =>
      .ok (o.rolls.map fun r => r.amount.isFinite)) = .ok [true, true] := by
    decide +kernel
  have hheight : ((Plan.command "2d6*2+3 - 1/d4").expr >>= fun e => .ok e.height) = .ok 4 := by
    decide +kernel
  obtain ⟨o, ho, hfinite⟩ := bind_eq_ok_iff.mp hfinite
  obtain ⟨e, he, hheight⟩ := bind_eq_ok_iff.mp hheight
  have hlow : e.height ≤ Roll.room - 2 := by
    rw [Except.ok.inj hheight]
    decide
  obtain ⟨hshown, -, hshallow⟩ := exists_trace_iff ho
  refine ⟨o, ho, hshown.mpr fun r hr => ⟨hshallow e he hlow r hr, ?_⟩⟩
  have hmem : r.amount.isFinite ∈ [true, true] := by
    rw [← Except.ok.inj hfinite]
    exact List.mem_map_of_mem hr
  simpa using hmem

/-- A number of 309 nines, times a die, below one. -/
def vastQuotient : Text :=
  Text.ofString "1/(d6*" ++ List.replicate 309 (CodePoint.ofChar '9') ++ Text.ofString ")"

/-- A quotient by something that is too large for a double is rolled but not shown. -/
theorem not_exists_trace_of_vastQuotient :
    ∃ o, (vastQuotient.rolled (.ofStream id) 0).1 = .ok o ∧ ¬ ∃ text, o.trace = .ok text := by
  have hrefused : ((vastQuotient.rolled (.ofStream id) 0).1 >>= fun o => .ok o.trace) =
      .ok (.error (.unevaluable .notFinite)) := by
    decide +kernel
  obtain ⟨o, ho, hrefused⟩ := bind_eq_ok_iff.mp hrefused
  refine ⟨o, ho, ?_⟩
  rintro ⟨text, htext⟩
  cases htext.symm.trans (Except.ok.inj hrefused)

end Outcome

end DiceBot
