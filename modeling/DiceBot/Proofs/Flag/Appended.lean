import DiceBot.Proofs.Flag.Command

/-!
# Flags behind a command

Flags that are written behind a command are split off again, and nothing else is: a row of flags
that began within the command would have to end where the command does, since no flag holds the
space with which the next one begins, so that the command would end in a row of its own.

## Main definitions

* `WrittenFlag`: a flag as it is written
* `WrittenFlag.row`: flags written one behind another

## Main results

* `Text.splitFlags_append_row`: a row is split off the text that it is written behind
* `Text.splitFlags_append_written`: written flags are split off, and a line end behind them with them
* `Text.trimmed_append_row`: no blank stands at the end of a row
-/

namespace DiceBot

/-- A flag as it is written. -/
structure WrittenFlag where
  /-- What introduces the flag. -/
  mark : Text
  /-- The word of the flag. -/
  word : Text
  mark_mem : mark ∈ Text.flagMarks
  isWord : word.IsWord

namespace WrittenFlag

/-- The text of a flag. -/
def text (flag : WrittenFlag) : Text :=
  flag.mark ++ flag.word

/-- The text of flags one behind another. -/
def row (flags : List WrittenFlag) : Text :=
  flags.flatMap text

/-- Flags one behind another are a row, if nothing but a line end stands behind them. -/
theorem isFlagRow_row_append {flags : List WrittenFlag} (hne : flags ≠ []) {behind : Text}
    (hend : Text.isRowEnd behind = true) :
    (row flags ++ behind).IsFlagRow (flags.map word) := by
  induction flags with
  | nil => exact absurd rfl hne
  | cons flag flags ih =>
    have htext : row (flag :: flags) ++ behind =
        flag.mark ++ (flag.word ++ (row flags ++ behind)) := by
      simp only [row, text, List.flatMap_cons, List.append_assoc]
    rw [htext, List.map_cons]
    cases flags with
    | nil => exact .last flag.mark_mem flag.isWord hend
    | cons next flags => exact .more flag.mark_mem flag.isWord (ih (List.cons_ne_nil _ _))

/-- Flags one behind another are a row. -/
theorem isFlagRow_row {flags : List WrittenFlag} (hne : flags ≠ []) :
    (row flags).IsFlagRow (flags.map word) := by
  have hrow : (row flags ++ []).IsFlagRow _ := isFlagRow_row_append hne rfl
  rwa [List.append_nil] at hrow

/-- The last code point of a row belongs to a word. -/
theorem isWord_of_mem_getLast?_row {flags : List WrittenFlag} (hne : flags ≠ []) {front : Text}
    {c : CodePoint} (hc : c ∈ (front ++ row flags).getLast?) : c.isWord = true := by
  obtain ⟨before, flag, rfl⟩ := (List.eq_nil_or_concat' flags).resolve_left hne
  have hword : front ++ row (before ++ [flag]) = front ++ row before ++ flag.mark ++ flag.word := by
    simp only [row, text, List.flatMap_append, List.flatMap_cons, List.flatMap_nil,
      List.append_nil, List.append_assoc]
  rw [hword, List.getLast?_append_of_ne_nil _ flag.isWord.1] at hc
  exact flag.isWord.2 c (List.mem_of_getLast? hc)

end WrittenFlag

namespace Text

/-! ## Splitting -/

/-- No flag holds a space behind its first code point. -/
theorem space_notMem_tail {mark word : Text} (hm : mark ∈ flagMarks) (hw : word.IsWord) :
    CodePoint.ofChar ' ' ∉ (mark ++ word).tail := by
  have hspace : CodePoint.ofChar ' ' ∉ word := hw.notMem (by decide +kernel)
  rcases mem_flagMarks_iff.mp hm with rfl | rfl
  · show CodePoint.ofChar ' ' ∉ CodePoint.ofChar '-' :: CodePoint.ofChar '-' :: word
    rw [List.mem_cons, List.mem_cons, not_or, not_or]
    exact ⟨by decide, by decide, hspace⟩
  · show CodePoint.ofChar ' ' ∉ CodePoint.ofChar '—' :: word
    rw [List.mem_cons, not_or]
    exact ⟨by decide, hspace⟩

/-- What stands before a space, and begins with a flag together with what stands behind, begins
with the whole flag. -/
theorem exists_append_of_flag {mark word rest front row : Text} (hm : mark ∈ flagMarks)
    (hw : word.IsWord) (hne : front ≠ []) (hrow : row.head? = some (CodePoint.ofChar ' '))
    (h : front ++ row = mark ++ (word ++ rest)) :
    ∃ behind, front = mark ++ (word ++ behind) ∧ rest = behind ++ row := by
  have hflag : mark ++ word ≠ [] := List.append_ne_nil_of_right_ne_nil _ hw.1
  have hspace := space_notMem_tail hm hw
  rw [← List.append_assoc] at h
  simp only [← List.append_assoc]
  generalize mark ++ word = flag at h hflag hspace
  obtain ⟨row, rfl⟩ := List.head?_eq_some_iff.mp hrow
  obtain ⟨c, front, rfl⟩ := List.exists_cons_of_ne_nil hne
  obtain ⟨d, flag, rfl⟩ := List.exists_cons_of_ne_nil hflag
  obtain ⟨rfl, htail⟩ := List.cons_eq_cons.mp h
  obtain ⟨behind, rfl, hrest⟩ := exists_append_of_notMem hspace htail
  exact ⟨behind, rfl, hrest⟩

/-- Text before a row that makes a longer row of it is a row itself. -/
theorem IsFlagRow.of_append {front row : Text} {words words' : List Text} (hne : front ≠ [])
    (hrow : row.IsFlagRow words) (h : (front ++ row).IsFlagRow words') :
    ∃ words, front.IsFlagRow words := by
  generalize htext : front ++ row = t at h
  induction h generalizing front with
  | @last mark word rest hm hw hend =>
    obtain ⟨behind, _, rfl⟩ := exists_append_of_flag hm hw hne hrow.head?_eq htext
    have hspace : CodePoint.ofChar ' ' ∈ behind ++ row :=
      List.mem_append_right _ (List.mem_of_head? hrow.head?_eq)
    rcases isRowEnd_iff.mp hend with hend | hend
    · rw [hend] at hspace
      cases hspace
    · rw [hend] at hspace
      exact absurd hspace (by decide)
  | @more mark word rest words' hm hw _ ih =>
    obtain ⟨behind, rfl, hrest⟩ := exists_append_of_flag hm hw hne hrow.head?_eq htext
    cases behind with
    | nil => exact ⟨[word], .last hm hw rfl⟩
    | cons c behind =>
      obtain ⟨words, hbehind⟩ := ih (List.cons_ne_nil _ _) hrest.symm
      exact ⟨word :: words, .more hm hw hbehind⟩

/-- A row is split off the text that it stands behind, if no row begins within that text. -/
theorem splitFlags_append_of_forall {t row : Text} {words : List Text}
    (hnone : ∀ front rest words', t = front ++ rest → rest ≠ [] →
      ¬ (rest ++ row).IsFlagRow words')
    (hrow : row.IsFlagRow words) : (t ++ row).splitFlags = (t, words) := by
  induction t with
  | nil => exact hrow.splitFlags_eq
  | cons c t ih =>
    have hhere : flagRow? (c :: (t ++ row)) = none := by
      cases hfound : flagRow? (c :: (t ++ row)) with
      | none => rfl
      | some words' =>
        have hlonger : IsFlagRow ((c :: t) ++ row) words' := flagRow?_eq_some_iff.mp hfound
        exact absurd hlonger (hnone [] (c :: t) words' rfl (List.cons_ne_nil c t))
    have hrest := ih fun front rest words' he => hnone (c :: front) rest words' (by rw [he]; rfl)
    rw [List.cons_append, splitFlags_of_none hhere, hrest]

/-- **A row is split off the text that it is written behind**, if nothing is split off that text
alone. -/
theorem splitFlags_append_row {t row : Text} {words : List Text} (h : t.splitFlags = (t, []))
    (hrow : row.IsFlagRow words) : (t ++ row).splitFlags = (t, words) := by
  rw [splitFlags_eq_self_iff] at h
  refine splitFlags_append_of_forall (fun front rest words' he hne hlonger => ?_) hrow
  obtain ⟨words, hown⟩ := IsFlagRow.of_append hne hrow hlonger
  exact h front rest words he hown

/-- **What was written behind a text is split off, and nothing else.** Let nothing be split off a
text alone. If flags are written behind it, one or more, then the text is given back as it was,
whatever it ends in, and with it the words of these flags in their order. A line end behind the
last flag changes nothing. -/
theorem splitFlags_append_written {t : Text} (h : t.splitFlags = (t, []))
    {flags : List WrittenFlag} (hne : flags ≠ []) :
    (t ++ WrittenFlag.row flags).splitFlags = (t, flags.map WrittenFlag.word) ∧
      (t ++ (WrittenFlag.row flags ++ ofString "\n")).splitFlags =
        (t, flags.map WrittenFlag.word) :=
  ⟨splitFlags_append_row h (WrittenFlag.isFlagRow_row hne),
    splitFlags_append_row h (WrittenFlag.isFlagRow_row_append hne rfl)⟩

/-- A flag for an answer to the author alone, and one behind an em dash. -/
def privateAndLoud : List WrittenFlag :=
  [⟨" --", "private", by decide, by decide, by decide +kernel⟩,
    ⟨" —", "loud", by decide, by decide, by decide +kernel⟩]

/-- The text ends in a dash itself, and in the beginning of a flag. -/
theorem splitFlags_append_privateAndLoud :
    splitFlags "!d6 — --" = (ofString "!d6 — --", []) ∧ privateAndLoud ≠ [] ∧
      splitFlags "!d6 — -- --private —loud\n" =
        (ofString "!d6 — --", [ofString "private", ofString "loud"]) := by
  have h : splitFlags "!d6 — --" = (ofString "!d6 — --", []) := by decide +kernel
  have hne : privateAndLoud ≠ [] := List.cons_ne_nil _ _
  exact ⟨h, hne, (splitFlags_append_written h hne).2⟩

end Text

/-! ## Blanks -/

/-- No word character is white space. -/
theorem CodePoint.isBlank_of_isWord {c : CodePoint} (h : c.isWord = true) : c.isBlank = false := by
  have apart : ∀ r ∈ blankRanges, ∀ s ∈ wordRanges, r.2 < s.1 ∨ s.2 < r.1 := by
    decide +kernel
  simp only [isWord, isIn, List.any_eq_true] at h
  obtain ⟨s, hs, hc⟩ := h
  simp only [isBlank, isIn, List.any_eq_false]
  intro r hr hb
  have := apart r hr s hs
  simp only [Bool.and_eq_true, decide_eq_true_eq] at hc hb
  omega

namespace Text

/-- A text without a blank at its ends is trimmed. -/
theorem trimmed_eq_self {t : Text} (hfirst : ∀ c ∈ t.head?, c.isBlank = false)
    (hlast : ∀ c ∈ t.getLast?, c.isBlank = false) : t.trimmed = t := by
  have hkeep : ∀ u : Text, (∀ c ∈ u.head?, c.isBlank = false) →
      u.dropWhile CodePoint.isBlank = u := by
    intro u hu
    cases u with
    | nil => rfl
    | cons c u => exact List.dropWhile_cons_of_neg (by simp [hu c rfl])
  rw [trimmed, hkeep t hfirst, hkeep t.reverse, List.reverse_reverse]
  rwa [List.head?_reverse]

/-- No blank stands at the end of a row, and none before a command. -/
theorem trimmed_append_row {t : Text} (h : t.isRollCommand = true ∨ t.isArithmeticCommand = true)
    {flags : List WrittenFlag} (hne : flags ≠ []) :
    (t ++ WrittenFlag.row flags).trimmed = t ++ WrittenFlag.row flags := by
  apply trimmed_eq_self
  · obtain ⟨e, _, rfl, _⟩ := exists_pieces_of_command h
    rintro c ⟨⟩
    decide
  · intro c hc
    exact CodePoint.isBlank_of_isWord (WrittenFlag.isWord_of_mem_getLast?_row hne hc)

end Text

end DiceBot
