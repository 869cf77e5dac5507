import DiceBot.Proofs.Decimal.Signs
import DiceBot.Proofs.Dice.Subtotal
import DiceBot.Proofs.Text.Emphasis

/-!
# Emphasis in answers

An answer to a roll or to arithmetic sets its value in bold type, and a trace sets the remarks on
critical rolls so as well. What the user has written stands between these as plain text: the command
and the flattened text escaped, the arithmetic behind a term escaped, and a dice term as it is, for
it has no asterisks. Since no token holds a backslash, nothing of it escapes a mark of the answer,
and the escaped texts can be read back.

## Main definitions

* `Roll.IsSetIn`: the line of a roll in spans
* `Outcome.spans`, `arithmeticSpans`: the answers in spans

## Main results

* `Roll.isSealed_front`: the plain part of a line has no bare asterisks
* `bareStars_of_answer`: the bare asterisks of an answer are those around its spans in bold type
-/

namespace DiceBot

/-! ## Texts without asterisks -/

theorem CodePoint.ne_of_isDigit {c : CodePoint} (h : c.isDigit = true) :
    c ≠ ofChar '*' ∧ c ≠ ofChar '\\' := by
  constructor
  · rintro rfl
    revert h
    decide
  · rintro rfl
    revert h
    decide

namespace Text

variable {t : Text}

theorem IsNumeric.isSealed (h : t.IsNumeric) : t.IsSealed := by
  have hmarks : ∀ c ∈ numberMarks, c ≠ CodePoint.ofChar '*' ∧ c ≠ CodePoint.ofChar '\\' := by decide
  exact isSealed_of_forall fun c hc => (h c hc).elim CodePoint.ne_of_isDigit (hmarks c)

theorem DiceParts.IsProper.isSealed {parts : DiceParts} (h : parts.IsProper) :
    parts.text.IsSealed := by
  have hletters : ∀ c ∈ ofString "dkhl",
      c ≠ CodePoint.ofChar '*' ∧ c ≠ CodePoint.ofChar '\\' := by decide
  exact isSealed_of_forall fun c hc => (h.mem_text hc).elim CodePoint.ne_of_isDigit (hletters c)

/-- No expression holds a backslash. -/
theorem backslash_notMem_of_pieces {ps : List Piece} (h : t.pieces = .ok ps) :
    CodePoint.ofChar '\\' ∉ t :=
  notMem_of_pieces h (by decide)

theorem backslash_notMem_of_value {x : Float} (h : t.value = .ok x) :
    CodePoint.ofChar '\\' ∉ t := by
  unfold value valueWithin expr at h
  cases htokens : t.tokens with
  | error cause =>
    rw [htokens] at h
    cases h
  | ok tokens =>
    obtain ⟨ps, hps, -⟩ := exists_pieces_of_tokens htokens
    exact backslash_notMem_of_pieces hps

end Text

/-! ## Lines -/

namespace Roll

variable {r : Roll}

theorem isSealed_of_dieText {v : Int} {text : Text} (h : dieText v = .ok text) :
    text.IsSealed := by
  have hwritten {n : Int} {text : Text} (h : Text.writeInteger n = .ok text) : text.IsSealed := by
    unfold Text.writeInteger at h
    split at h
    · cases h
      exact (Text.isNumeric_integer n).isSealed
    · cases h
  unfold dieText at h
  split at h
  · obtain ⟨n, hn, h⟩ := bind_eq_ok_iff.mp h
    cases h
    exact (Text.IsSealed.append (by decide) (hwritten hn)).append (by decide)
  · exact hwritten h

theorem isSealed_joined_dice {dice : List Text} (h : r.values.mapM dieText = .ok dice) :
    (Text.joined ", " dice).IsSealed := by
  refine Text.isSealed_joined (by decide) fun die hdie => ?_
  obtain ⟨v, -, hv⟩ := exists_of_mem_right (mapM_eq_ok_iff.mp h) hdie
  exact isSealed_of_dieText hv

/-- The plain text in a line, with the dice and the subtotal that it shows. -/
def front (r : Roll) (dice : List Text) (subtotal : Float) : Text :=
  let behind : Text := if r.suffix = [] then [] else " " ++ r.suffix.escaped
  r.text ++ " (" ++ Text.joined ", " dice ++ ")" ++ behind ++ " = " ++ Text.whole subtotal

theorem exists_of_line {text : Text} (h : r.line = .ok text) :
    ∃ dice subtotal, r.values.mapM dieText = .ok dice ∧
      text = r.front dice subtotal ++ r.remarks := by
  obtain ⟨dice, hdice, h⟩ := bind_eq_ok_iff.mp h
  obtain ⟨subtotal, -, h⟩ := bind_eq_ok_iff.mp h
  cases h
  exact ⟨dice, subtotal, hdice, rfl⟩

/-- The remarks in spans. -/
def remarkSpans (r : Roll) : List Span :=
  (if r.criticalSuccess then [.plain " - ", .strong "CRITICAL SUCCESS!"] else []) ++
    if r.criticalFailure then [.plain " - ", .strong "CRITICAL FAILURE!"] else []

theorem row_remarkSpans (r : Roll) : Span.row r.remarkSpans = r.remarks := by
  rw [remarkSpans, remarks, Span.row_append]
  congr 1
  · cases r.criticalSuccess <;> rfl
  · cases r.criticalFailure <;> rfl

theorem isSealed_remarkSpans (r : Roll) : ∀ s ∈ r.remarkSpans, s.content.IsSealed := by
  unfold remarkSpans
  cases r.criticalSuccess <;> cases r.criticalFailure <;> decide

/-- The line of a roll is set in these spans: plain text, and behind it the remarks. -/
def IsSetIn (r : Roll) (line : List Span) : Prop :=
  ∃ front, line = .plain front :: r.remarkSpans ∧ r.line = .ok (Span.row line)

/-- A line is set in spans once its plain text has no bare asterisks. -/
theorem exists_isSetIn {text : Text} (h : r.line = .ok text)
    (hfront : ∀ dice, r.values.mapM dieText = .ok dice → ∀ x, (r.front dice x).IsSealed) :
    ∃ line, r.IsSetIn line ∧ Span.row line = text ∧ ∀ s ∈ line, s.content.IsSealed := by
  obtain ⟨dice, subtotal, hdice, he⟩ := exists_of_line h
  have hrow : Span.row (.plain (r.front dice subtotal) :: r.remarkSpans) = text := by
    rw [he, ← row_remarkSpans]
    rfl
  refine ⟨_, ⟨_, rfl, hrow ▸ h⟩, hrow, List.forall_mem_cons.mpr ⟨?_, isSealed_remarkSpans r⟩⟩
  exact hfront dice hdice subtotal

end Roll

namespace Plan.Rolls

variable {t : Text} {plan : Plan} {r : Roll} {front following : List Token} {u : Token}

/-- The term of a roll is a token of the command. -/
theorem isSealed_text (h : ofText t = .ok plan) (hr : plan.Rolls r front u following) :
    r.text.IsSealed := by
  obtain ⟨hpieces, -, -, -⟩ := ofText_eq_ok_iff.mp h
  have hmem : u ∈ (placed 0 plan.pieces).filter (·.lexeme.isDice) := by
    refine List.mem_filter.mpr ⟨?_, hr.isDice⟩
    rw [hr.tokens]
    exact List.mem_append_right _ List.mem_cons_self
  obtain ⟨parts, hparts, hu⟩ := exists_parts (Text.isProper_of_pieces hpieces) hmem
  rw [hr.text, hu]
  exact hparts.isSealed

/-- The plain text in the line of a roll of a command has no bare asterisks. -/
theorem isSealed_front (h : ofText t = .ok plan) (hr : plan.Rolls r front u following)
    {dice : List Text} (hdice : r.values.mapM Roll.dieText = .ok dice) (subtotal : Float) :
    (r.front dice subtotal).IsSealed := by
  have hbehind : Text.IsSealed (if r.suffix = [] then [] else " " ++ r.suffix.escaped) := by
    split
    · exact Text.isSealed_nil
    · obtain ⟨hsuffix, -⟩ := hr.pieces_behind h 0
      exact Text.IsSealed.append (by decide)
        (Text.isSealed_escaped (Text.backslash_notMem_of_pieces hsuffix))
  have hmarks : ∀ mark ∈ [" (", ")", " = "], (Text.ofString mark).IsSealed := by decide
  have hopening := hmarks " (" (by simp)
  have hclosing := hmarks ")" (by simp)
  have hequals := hmarks " = " (by simp)
  have hrolled := (((hr.isSealed_text h).append hopening).append
    (Roll.isSealed_joined_dice hdice)).append hclosing
  exact ((hrolled.append hbehind).append hequals).append (Text.isNumeric_whole subtotal).isSealed

end Plan.Rolls

/-! ## Answers -/

namespace Outcome

variable {t : Text} {shaker : Shaker} {index : Nat} {o : Outcome}

/-- The lines of a trace without the last one, in spans. -/
def blocks (o : Outcome) (lines : List (List Span)) : List (List Span) :=
  [.plain o.text.escaped] :: lines ++
    if 1 < o.rolls.length then [[.plain o.flattened.escaped]] else []

/-- A trace in spans: the command, the lines of the rolls, the flattened text if there are several
rolls, and the value in bold type. -/
def spans (o : Outcome) (lines : List (List Span)) : List Span :=
  (o.blocks lines).flatMap (· ++ [.plain "\n"]) ++ [.strong (Text.whole o.total)]

theorem row_spans (o : Outcome) (lines : List (List Span)) :
    Span.row (o.spans lines) = Text.joined "\n"
      (o.text.escaped :: lines.map Span.row ++
        (if 1 < o.rolls.length then [o.flattened.escaped] else []) ++
          ["**" ++ Text.whole o.total ++ "**"]) := by
  rw [Text.joined_concat, spans, Span.row_append, Span.row_flatMap, blocks]
  split
  · simp [Span.row, Span.text]
  · simp [Span.row, Span.text]

/-- Nothing that the user has written holds a backslash. -/
theorem backslash_notMem (h : (t.rolled shaker index).1 = .ok o) :
    o.text = Plan.command t ∧ CodePoint.ofChar '\\' ∉ o.text ∧
      CodePoint.ofChar '\\' ∉ o.flattened := by
  obtain ⟨plan, written, hplan, hrolls, hw, -, htext, hflattened⟩ := Plan.exists_of_rolled h
  obtain ⟨hpieces, -, -, -⟩ := Plan.ofText_eq_ok_iff.mp hplan
  have hcommand : o.text = Plan.command t := htext.trans (Text.flatMap_of_pieces hpieces)
  rw [hrolls] at hw
  have hflat := Plan.pieces_flatten hplan (Plan.isDigits_written hplan hw)
  rw [hcommand, hflattened]
  exact ⟨rfl, Text.backslash_notMem_of_pieces hpieces, Text.backslash_notMem_of_pieces hflat⟩

/-- The lines of a trace are set in spans without bare asterisks of their own. -/
theorem exists_lines (h : (t.rolled shaker index).1 = .ok o) {rolls : List Roll}
    (hrolls : rolls ⊆ o.rolls) {texts : List Text} (htexts : rolls.mapM Roll.line = .ok texts) :
    ∃ lines, List.Forall₂ Roll.IsSetIn rolls lines ∧ lines.map Span.row = texts ∧
      ∀ line ∈ lines, ∀ s ∈ line, s.content.IsSealed := by
  obtain ⟨plan, -, hplan, hall, -⟩ := Plan.exists_of_rolled h
  induction mapM_eq_ok_iff.mp htexts with
  | nil => exact ⟨[], .nil, rfl, by simp⟩
  | @cons r text rest texts hline hrest ih =>
    obtain ⟨hr, hrolls⟩ := List.cons_subset.mp hrolls
    obtain ⟨front, u, following, hu⟩ := Plan.exists_rolls hplan (hall ▸ hr)
    obtain ⟨line, hset, hrow, hsealed⟩ :=
      Roll.exists_isSetIn hline fun dice hdice => hu.isSealed_front hplan hdice
    obtain ⟨lines, hsets, hrows, hseals⟩ := ih hrolls (mapM_eq_ok_iff.mpr hrest)
    refine ⟨line :: lines, .cons hset hsets, ?_, List.forall_mem_cons.mpr ⟨hsealed, hseals⟩⟩
    rw [List.map_cons, hrow, hrows]

theorem isSealed_spans (h : (t.rolled shaker index).1 = .ok o) {lines : List (List Span)}
    (hlines : ∀ line ∈ lines, ∀ s ∈ line, s.content.IsSealed) :
    ∀ s ∈ o.spans lines, s.content.IsSealed := by
  obtain ⟨-, htext, hflattened⟩ := backslash_notMem h
  have hblocks : ∀ block ∈ o.blocks lines, ∀ s ∈ block, s.content.IsSealed := by
    refine List.forall_mem_append.mpr ⟨List.forall_mem_cons.mpr ⟨?_, hlines⟩, ?_⟩
    · exact List.forall_mem_singleton.mpr (Text.isSealed_escaped htext)
    · split
      · exact List.forall_mem_singleton.mpr
          (List.forall_mem_singleton.mpr (Text.isSealed_escaped hflattened))
      · simp
  refine List.forall_mem_append.mpr ⟨fun s hs => ?_, ?_⟩
  · obtain ⟨block, hblock, hs⟩ := List.mem_flatMap.mp hs
    rcases List.mem_append.mp hs with hs | hs
    · exact hblocks block hblock s hs
    · cases List.mem_singleton.mp hs
      exact (by decide : Text.IsSealed "\n")
  · exact List.forall_mem_singleton.mpr (Text.isNumeric_whole _).isSealed

end Outcome

/-- The answer to an arithmetic expression in spans. -/
def arithmeticSpans (t : Text) (x : Float) : List Span :=
  [.plain (t.escaped ++ " = "), .strong (Text.whole x)]

theorem exists_of_arithmeticResponse {t answer : Text}
    (h : (arithmeticResponse t).answer = .ok (some answer)) :
    ∃ x, t.value = .ok x ∧ answer = Span.row (arithmeticSpans t x) := by
  unfold arithmeticResponse at h
  split at h
  · rename_i x hx
    cases h
    have hmark : Text.ofString " = **" = Text.ofString " = " ++ Text.ofString "**" := rfl
    refine ⟨x, hx, ?_⟩
    simp [arithmeticSpans, Span.row, Span.text, hmark]
  · cases h
  · cases h
  · cases h
  · cases h

/-- **The bare asterisks of an answer are those around its spans in bold type.** In a trace these
are the remarks on critical rolls and the value, and in the answer to arithmetic the value. Without
its backslashes the first block of a trace is the command, and the block of the flattened text is
that text; so it is with the expression in the answer to arithmetic. -/
theorem bareStars_of_answer (t : Text) :
    (∀ (shaker : Shaker) (index : Nat) (o : Outcome) (trace : Text),
      (t.rolled shaker index).1 = .ok o → o.trace = .ok trace →
        (rollResponse t shaker index).1.answer = .ok trace ∧
        (∃ lines, List.Forall₂ Roll.IsSetIn o.ordered lines ∧
          trace = Span.row (o.spans lines) ∧
          trace.bareStars = Span.rowMarks (o.spans lines)) ∧
        o.text = Plan.command t ∧ o.text.escaped.unescaped = o.text ∧
        o.flattened.escaped.unescaped = o.flattened) ∧
    ∀ answer, (arithmeticResponse t).answer = .ok (some answer) →
      ∃ x, t.value = .ok x ∧ answer = Span.row (arithmeticSpans t x) ∧
        answer.bareStars = Span.rowMarks (arithmeticSpans t x) ∧ t.escaped.unescaped = t := by
  constructor
  · intro shaker index o trace ho htrace
    obtain ⟨hcommand, htext, hflattened⟩ := Outcome.backslash_notMem ho
    have hanswer : (rollResponse t shaker index).1.answer = .ok trace := by
      rw [rollResponse_answer, bind_eq_ok_iff.mpr ⟨o, ho, htrace⟩]
    refine ⟨hanswer, ?_, hcommand, Text.unescaped_escaped htext, Text.unescaped_escaped hflattened⟩
    obtain ⟨texts, htexts, he⟩ := bind_eq_ok_iff.mp htrace
    cases he
    obtain ⟨lines, hset, hrows, hsealed⟩ :=
      Outcome.exists_lines ho (fun r hr => List.mem_mergeSort.mp hr) htexts
    have hrow := o.row_spans lines
    rw [hrows] at hrow
    refine ⟨lines, hset, hrow.symm, ?_⟩
    rw [← Span.bareStars_row (Outcome.isSealed_spans ho hsealed), hrow]
  · intro answer hanswer
    obtain ⟨x, hx, rfl⟩ := exists_of_arithmeticResponse hanswer
    have hslash := Text.backslash_notMem_of_value hx
    refine ⟨x, hx, rfl, Span.bareStars_row ?_, Text.unescaped_escaped hslash⟩
    refine List.forall_mem_cons.mpr ⟨?_, List.forall_mem_singleton.mpr ?_⟩
    · exact (Text.isSealed_escaped hslash).append (by decide)
    · exact (Text.isNumeric_whole x).isSealed

/-- The trace of `d20*2` when a one is rolled. -/
def scaledTrace : Text :=
  "d20\\*2\nd20 (1) \\*2 = 2 - **CRITICAL FAILURE!**\n**2**"

/-- No asterisk of the user's is bare; those around a remark and around the value are. -/
theorem bareStars_of_answer_scaledTrace :
    (∃ o, (Text.rolled "d20*2" (.ofStream id) 0).1 = .ok o ∧ o.trace = .ok scaledTrace ∧
      scaledTrace.bareStars = [25, 26, 44, 45, 47, 48, 50, 51] ∧
      ∃ lines, List.Forall₂ Roll.IsSetIn o.ordered lines ∧
        scaledTrace.bareStars = Span.rowMarks (o.spans lines)) ∧
    (arithmeticResponse "2*3").answer = .ok (some "2\\*3 = **6**") ∧
      Text.bareStars "2\\*3 = **6**" = [7, 8, 10, 11] ∧
      ∃ x, Text.bareStars "2\\*3 = **6**" = Span.rowMarks (arithmeticSpans "2*3" x) := by
  have hshown : ((Text.rolled "d20*2" (.ofStream id) 0).1 >>= Outcome.trace) =
      .ok scaledTrace := by
    decide +kernel
  have hanswer : (arithmeticResponse "2*3").answer = .ok (some "2\\*3 = **6**") := by
    decide +kernel
  obtain ⟨o, ho, htrace⟩ := bind_eq_ok_iff.mp hshown
  obtain ⟨-, ⟨lines, hset, -, hmarks⟩, -⟩ := (bareStars_of_answer _).1 _ _ o _ ho htrace
  obtain ⟨x, -, -, hvalue, -⟩ := (bareStars_of_answer _).2 _ hanswer
  exact ⟨⟨o, ho, htrace, by decide +kernel, lines, hset, hmarks⟩, hanswer, by decide +kernel, x,
    hvalue⟩

end DiceBot
