import DiceBot.Dice.Response
import DiceBot.Proofs.Flag.Row
import DiceBot.Text.Blank

/-!
# Flags of commands

A message that is a command as a whole may still end like a flag, since two hyphens may stand
before an operand. Then the end is taken for a flag, and the rest of the message is the command.
Nothing else that a command may hold is ever taken for one: it has no dash but the hyphen, and no
line end behind its last operand.

## Main definitions

* `Text.EndsInFlag`: a space, two hyphens and a word stand at the end

## Main results

* `Text.dash_notMem_of_pieces`: no expression holds an em dash
* `Text.exists_pieces_of_command`: a command is an exclamation mark before an expression
-/

namespace DiceBot

namespace Text

/-- No expression holds an em dash. -/
theorem dash_notMem_of_pieces {t : Text} {ps : List Piece} (h : t.pieces = .ok ps) :
    CodePoint.ofChar '—' ∉ t :=
  notMem_of_pieces h (by decide)

theorem exists_pieces_of_isRoll {e : Text} (h : e.isRoll = true) : ∃ ps, e.pieces = .ok ps := by
  cases hp : e.pieces with
  | ok ps => exact ⟨ps, rfl⟩
  | error cause => simp [isRoll, tokens, hp, Except.map] at h

theorem exists_pieces_of_isArithmetic {e : Text} (h : e.isArithmetic = true) :
    ∃ ps, e.pieces = .ok ps := by
  cases hp : e.pieces with
  | ok ps => exact ⟨ps, rfl⟩
  | error cause => simp [isArithmetic, tokens, hp, Except.map] at h

theorem exists_pieces_of_command {t : Text}
    (h : t.isRollCommand = true ∨ t.isArithmeticCommand = true) :
    ∃ e ps, t = CodePoint.ofChar '!' :: e ∧ pieces e = .ok ps := by
  rcases h with h | h
  · obtain ⟨e, he, hroll⟩ := (Option.any_eq_true ..).mp h
    obtain ⟨ps, hps⟩ := exists_pieces_of_isRoll hroll
    exact ⟨e, ps, dropStart?_eq_some he, hps⟩
  · obtain ⟨e, he, harithmetic⟩ := (Option.any_eq_true ..).mp h
    obtain ⟨ps, hps⟩ := exists_pieces_of_isArithmetic harithmetic
    exact ⟨e, ps, dropStart?_eq_some he, hps⟩

/-- A trimmed text does not end with a blank. -/
theorem isBlank_of_mem_getLast?_trimmed {t : Text} {c : CodePoint}
    (h : c ∈ t.trimmed.getLast?) : c.isBlank = false := by
  rw [trimmed, List.getLast?_reverse] at h
  have := List.head?_dropWhile_not CodePoint.isBlank (t.dropWhile CodePoint.isBlank).reverse
  rw [Option.mem_def.mp h] at this
  simpa using this

/-- A text ends in a space, two hyphens and a word. -/
def EndsInFlag (t : Text) : Prop :=
  ∃ front word : Text, t = front ++ (ofString " --" ++ word) ∧ word.IsWord

/-- **Nothing is split off a command exactly if it does not end like a flag.** -/
theorem splitFlags_command_eq_self_iff {t : Text}
    (h : t.trimmed.isRollCommand = true ∨ t.trimmed.isArithmeticCommand = true) :
    t.trimmed.splitFlags = (t.trimmed, []) ↔ ¬ t.trimmed.EndsInFlag := by
  have hlast := fun c => isBlank_of_mem_getLast?_trimmed (t := t) (c := c)
  generalize t.trimmed = s at h hlast ⊢
  obtain ⟨e, ps, hs, hps⟩ := exists_pieces_of_command h
  have hdash : CodePoint.ofChar '—' ∉ s := by
    rw [hs, List.mem_cons, not_or]
    exact ⟨by decide, dash_notMem_of_pieces hps⟩
  rw [splitFlags_eq_self_iff]
  constructor
  · rintro hnone ⟨front, word, rfl, hw⟩
    refine hnone front (ofString " --" ++ word) [word] rfl ?_
    have hrow : IsFlagRow (ofString " --" ++ (word ++ [])) [word] :=
      .last (by simp [flagMarks]) hw rfl
    rwa [List.append_nil] at hrow
  · rintro hends front row words rfl hrow
    obtain ⟨front', mark, word, rest, rfl, hm, hw, hend⟩ := hrow.exists_last
    refine hends ⟨front ++ front', word, ?_, hw⟩
    have hmark : mark = " --" := by
      simp only [flagMarks, List.mem_cons, List.not_mem_nil, or_false] at hm
      rcases hm with rfl | rfl
      · rfl
      · exact absurd (by simp [ofString]) hdash
    have hrest : rest = [] := by
      simp only [isRowEnd, Bool.or_eq_true, decide_eq_true_eq] at hend
      rcases hend with rfl | rfl
      · rfl
      · have := hlast (CodePoint.ofChar '\n') (by simp [ofString])
        revert this
        decide
    rw [hmark, hrest, List.append_nil, List.append_assoc]

theorem splitFlags_spaced_command :
    (trimmed " !1d20 - 5").isRollCommand = true ∧
      ((trimmed " !1d20 - 5").splitFlags = (trimmed " !1d20 - 5", []) ↔
        ¬ (trimmed " !1d20 - 5").EndsInFlag) := by
  have h : (trimmed " !1d20 - 5").isRollCommand = true := by decide +kernel
  exact ⟨h, splitFlags_command_eq_self_iff (.inl h)⟩

/-- Of a roll from which minus five is taken away only the roll remains. -/
theorem splitFlags_minus_minus :
    (trimmed "!1d20 --5").isRollCommand = true ∧
      (trimmed "!1d20 --5").splitFlags = (ofString "!1d20", [ofString "5"]) := by
  decide +kernel

end Text

end DiceBot
