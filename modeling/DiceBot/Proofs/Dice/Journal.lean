import DiceBot.Dice.Response
import DiceBot.Proofs.Text.Printable

/-!
# What the journal is told

The journal is told why a command makes no sense and which command it was. The words for this are
printable, and what they show of the command stands between quotation marks: the command, a part of
it, or a part of what is evaluated within it. So every entry is a single line, whatever the command.

## Main results

* `Malformed.isPrintable_message`, `Unevaluable.isPrintable_message`: the wordings are printable
* `isLine_of_mem_journal`: every entry is a single line
-/

namespace DiceBot

/-! ## Wordings -/

theorem Malformed.isPrintable_message (cause : Malformed) : cause.message.IsPrintable := by
  have hposition : Text.IsPrintable " at position " := by decide
  cases cause with
  | unexpectedCharacter c position =>
    have hcharacter : Text.IsPrintable "Unexpected character " := by decide
    exact ((hcharacter.append (Text.isPrintable_quoted [c])).append hposition).append
      (Text.isPrintable_natural position)
  | unexpectedToken text position =>
    have htoken : Text.IsPrintable "Unexpected " := by decide
    exact ((htoken.append text.isPrintable_quoted).append hposition).append
      (Text.isPrintable_natural position)
  | unclosed position =>
    exact Text.IsPrintable.append (by decide) (Text.isPrintable_natural position)
  | notDice text | noSides text =>
    exact Text.IsPrintable.append (by decide) text.isPrintable_quoted
  | empty | unexpectedEnd => decide

theorem Unevaluable.isPrintable_message (cause : Unevaluable) : cause.message.IsPrintable := by
  have hquoted (front : Text) (hfront : front.IsPrintable) (text : Text) :=
    hfront.append text.isPrintable_quoted
  cases cause with
  | unreadable text cause =>
    exact ((hquoted "Cannot evaluate " (by decide) text).append (by decide)).append
      cause.isPrintable_message
  | holdsDice text => exact (hquoted "Cannot evaluate " (by decide) text).append (by decide)
  | notRolled text => exact (hquoted "Dice term " (by decide) text).append (by decide)
  | divisionByZero | notFinite => decide

/-! ## Entries -/

/-- At most one entry is written, and what it says is printable. -/
def IsLegible (journal : List Entry) : Prop :=
  journal.length ≤ 1 ∧ ∀ e ∈ journal, e.message.IsPrintable

theorem isLegible_nil : IsLegible [] :=
  ⟨Nat.zero_le 1, by simp⟩

theorem isLegible_singleton {e : Entry} (h : e.message.IsPrintable) : IsLegible [e] :=
  ⟨le_rfl, List.forall_mem_singleton.mpr h⟩

theorem isLegible_faultResponse (t : Text) (fault : Fault) :
    IsLegible (faultResponse t fault).journal := by
  have hnonsense : Text.IsPrintable "無法解析擲骰指令 " := by decide +kernel
  have hdeep : Text.IsPrintable "擲骰指令巢狀過深: " := by decide +kernel
  have hcause := (hnonsense.append t.isPrintable_quoted).append
    (by decide : Text.IsPrintable ": ")
  cases fault with
  | malformed cause => exact isLegible_singleton (hcause.append cause.isPrintable_message)
  | unevaluable cause => exact isLegible_singleton (hcause.append cause.isPrintable_message)
  | tooDeep => exact isLegible_singleton (hdeep.append (Text.isPrintable_quoted _))
  | tooManyDice | numeralTooLong | totalTooLarge => exact isLegible_nil

theorem isLegible_rollResponse (t : Text) (shaker : Shaker) (index : Nat) :
    IsLegible (rollResponse t shaker index).1.journal := by
  unfold rollResponse
  split
  split
  · exact isLegible_nil
  · exact isLegible_faultResponse t _

theorem isLegible_arithmeticResponse (t : Text) : IsLegible (arithmeticResponse t).journal := by
  have hdeep : Text.IsPrintable "算式巢狀過深: " := by decide +kernel
  unfold arithmeticResponse
  split
  · exact isLegible_nil
  · exact isLegible_singleton (hdeep.append (Text.isPrintable_quoted _))
  · exact isLegible_nil
  · exact isLegible_nil
  · exact isLegible_nil

/-- **No command writes a line of the journal.** Whatever a roll or an arithmetic expression is, and
whatever fault it meets, the journal is told at most one thing, and that on a single line. -/
theorem isLine_of_mem_journal (t : Text) :
    (∀ (shaker : Shaker) (index : Nat), (rollResponse t shaker index).1.journal.length ≤ 1 ∧
      ∀ e ∈ (rollResponse t shaker index).1.journal, e.message.IsLine) ∧
    (arithmeticResponse t).journal.length ≤ 1 ∧
      ∀ e ∈ (arithmeticResponse t).journal, e.message.IsLine := by
  have hlines {journal : List Entry} (h : IsLegible journal) :
      journal.length ≤ 1 ∧ ∀ e ∈ journal, e.message.IsLine :=
    ⟨h.1, fun e he => (h.2 e he).isLine⟩
  exact ⟨fun shaker index => hlines (isLegible_rollResponse t shaker index),
    hlines (isLegible_arithmeticResponse t)⟩

/-- A command of three lines, with a quotation mark where no token begins. -/
def brokenCommand : Text := "d6\n\u2028\""

/-- A line feed before more parentheses than are followed. -/
def brokenDepth : Text :=
  CodePoint.ofChar '\n' :: List.replicate 330 (CodePoint.ofChar '(')

/-- Of expressions of several lines the journal is told on a single one. -/
theorem isLine_of_mem_journal_broken :
    ¬ brokenCommand.IsLine ∧ ¬ brokenDepth.IsLine ∧
    (∃ e ∈ (rollResponse brokenCommand (.ofStream id) 0).1.journal,
      e.message = Text.ofString "無法解析擲骰指令 'd6\\n\\u2028\"': Unexpected character '\"'"
        ++ " at position 4" ∧ e.message.IsLine) ∧
    ∃ e ∈ (arithmeticResponse brokenDepth).journal,
      e.message = Text.ofString "算式巢狀過深: '\\n" ++
        List.replicate 49 (CodePoint.ofChar '(') ++ "'" ∧ e.message.IsLine := by
  have hroll : (rollResponse brokenCommand (.ofStream id) 0).1.journal =
      [⟨.warning, Text.ofString "無法解析擲骰指令 'd6\\n\\u2028\"': Unexpected character '\"'"
        ++ " at position 4"⟩] := by
    decide +kernel
  have harithmetic : (arithmeticResponse brokenDepth).journal =
      [⟨.error, Text.ofString "算式巢狀過深: '\\n" ++
        List.replicate 49 (CodePoint.ofChar '(') ++ "'"⟩] := by
    decide +kernel
  have hmem (e : Entry) : e ∈ [e] := List.mem_singleton_self e
  refine ⟨by decide, by decide +kernel, ⟨_, hroll ▸ hmem _, rfl, ?_⟩,
    ⟨_, harithmetic ▸ hmem _, rfl, ?_⟩⟩
  · exact ((isLine_of_mem_journal brokenCommand).1 _ _).2 _ (hroll ▸ hmem _)
  · exact (isLine_of_mem_journal brokenDepth).2.2 _ (harithmetic ▸ hmem _)

end DiceBot
