import DiceBot.Proofs.Flag.Appended

/-!
# What is left of a message

The row of flags that is split off is the longest one that stands at the end of a message. What is
left could end in a row of its own only if that row did not go on with the one behind it, and that
is so only where a line end stands between the two: a line end may stand behind a row, but no row
goes on behind a line end.

## Main definitions

* `Text.BreaksBehindFlag`: a line that ends in a flag stands before the last row of flags

## Main results

* `Text.exists_row_of_splitFlags`, `Text.length_splitFlags_le`: what is split off is the longest row
* `Text.splitFlags_line_append_row`: nothing is split off across a line end
* `Text.splitFlags_remainder_iff`: the messages of which a second split takes nothing more
-/

namespace DiceBot

namespace Text

variable {front behind row row' : Text} {words words' : List Text}

/-! ## The longest row -/

/-- What is split off a message is a row of flags at its end, if anything is. -/
theorem exists_row_of_splitFlags (t : Text) :
    t.splitFlags = (t, []) ∨
      ∃ row words, t.splitFlags.1 ++ row = t ∧ row.IsFlagRow words := by
  induction t with
  | nil => exact .inl rfl
  | cons c t ih =>
    cases hfound : flagRow? (c :: t) with
    | some words =>
      have hrow : IsFlagRow (c :: t) words := flagRow?_eq_some_iff.mp hfound
      exact .inr ⟨c :: t, words, by rw [hrow.splitFlags_eq, List.nil_append], hrow⟩
    | none =>
      rw [splitFlags_of_none hfound]
      rcases ih with hall | ⟨row, words, happend, hrow⟩
      · exact .inl (by rw [hall])
      · exact .inr ⟨row, words, congrArg (c :: ·) happend, hrow⟩

/-- No row at the end of a message is longer than the one that is split off. -/
theorem length_splitFlags_le (hrow : row.IsFlagRow words) (front : Text) :
    (front ++ row).splitFlags.1.length ≤ front.length := by
  induction front with
  | nil => rw [List.nil_append, hrow.splitFlags_eq]
  | cons c front ih =>
    rw [List.cons_append]
    cases hfound : flagRow? (c :: (front ++ row)) with
    | some words =>
      rw [(flagRow?_eq_some_iff.mp hfound).splitFlags_eq]
      exact Nat.zero_le _
    | none =>
      rw [splitFlags_of_none hfound]
      exact Nat.succ_le_succ ih

/-! ## Rows and line ends -/

/-- A row goes on with the row behind it, unless it ends in a line end. -/
theorem IsFlagRow.append_or (h : row.IsFlagRow words) (h' : row'.IsFlagRow words') :
    (row ++ row').IsFlagRow (words ++ words') ∨
      ∃ front mark word : Text, mark ∈ flagMarks ∧ word.IsWord ∧
        row = front ++ (mark ++ (word ++ ofString "\n")) := by
  induction h with
  | @last mark word rest hm hw hend =>
    rcases isRowEnd_iff.mp hend with rfl | rfl
    · refine .inl ?_
      rw [List.append_nil, List.append_assoc]
      exact .more hm hw h'
    · exact .inr ⟨[], mark, word, hm, hw, rfl⟩
  | @more mark word row words hm hw _ ih =>
    rcases ih with hrow | ⟨front, mark', word', hm', hw', rfl⟩
    · refine .inl ?_
      rw [List.append_assoc, List.append_assoc]
      exact .more hm hw hrow
    · refine .inr ⟨mark ++ (word ++ front), mark', word', hm', hw', ?_⟩
      rw [List.append_assoc, List.append_assoc]

/-- No flag holds a line end. -/
theorem lineEnd_notMem {mark word : Text} (hm : mark ∈ flagMarks) (hw : word.IsWord) :
    CodePoint.ofChar '\n' ∉ mark ++ word := by
  rw [List.mem_append, not_or]
  refine ⟨?_, hw.notMem (by decide +kernel)⟩
  rcases mem_flagMarks_iff.mp hm with rfl | rfl
  · decide
  · decide

/-- No row goes on behind a line end. -/
theorem IsFlagRow.eq_nil_of_lineEnd
    (h : (front ++ CodePoint.ofChar '\n' :: behind).IsFlagRow words) : behind = [] := by
  generalize htext : front ++ CodePoint.ofChar '\n' :: behind = t at h
  induction h generalizing front with
  | @last mark word rest hm hw hend =>
    rw [← List.append_assoc] at htext
    obtain ⟨cut, -, rfl⟩ := exists_append_of_notMem (lineEnd_notMem hm hw) htext
    rcases isRowEnd_iff.mp hend with hend | hend
    · exact absurd hend (by simp)
    · cases cut with
      | nil => exact (List.cons_eq_cons.mp hend).2
      | cons c cut => exact absurd (List.cons_eq_cons.mp hend).2 (by simp)
  | @more mark word row words hm hw _ ih =>
    rw [← List.append_assoc] at htext
    obtain ⟨cut, -, hrow⟩ := exists_append_of_notMem (lineEnd_notMem hm hw) htext
    exact ih hrow.symm

/-- Nothing is split off across a line end. -/
theorem splitFlags_line_append_row (front : Text) (hrow : row.IsFlagRow words) :
    (front ++ CodePoint.ofChar '\n' :: row).splitFlags =
      (front ++ ofString "\n", words) := by
  have hnone (before rest : Text) (words' : List Text)
      (he : front ++ ofString "\n" = before ++ rest) (hne : rest ≠ []) :
      ¬ (rest ++ row).IsFlagRow words' := by
    intro hlonger
    obtain ⟨rest, c, rfl⟩ := (List.eq_nil_or_concat' rest).resolve_left hne
    rw [← List.append_assoc] at he
    obtain ⟨-, hc⟩ := List.append_inj' he rfl
    rw [List.append_assoc, ← hc] at hlonger
    have hnil : row = [] := IsFlagRow.eq_nil_of_lineEnd hlonger
    rw [hnil] at hrow
    cases hrow.head?_eq
  have hsplit := splitFlags_append_of_forall hnone hrow
  rwa [List.append_assoc] at hsplit

/-! ## What a second split takes -/

/-- A line that ends in a flag stands before the last row of flags. -/
def BreaksBehindFlag (t : Text) : Prop :=
  ∃ (front mark word row : Text) (words : List Text),
    t = front ++ (mark ++ (word ++ CodePoint.ofChar '\n' :: row)) ∧
      mark ∈ flagMarks ∧ word.IsWord ∧ row.IsFlagRow words

/-- **A second split takes nothing more, unless a line that ends in a flag stands before the row
that the first one takes.** -/
theorem splitFlags_remainder_iff (t : Text) :
    t.splitFlags.1.splitFlags = (t.splitFlags.1, []) ↔ ¬ t.BreaksBehindFlag := by
  constructor
  · rintro h ⟨front, mark, word, row, words, rfl, hm, hw, hrow⟩
    have hsplit := splitFlags_line_append_row (front ++ (mark ++ word)) hrow
    rw [List.append_assoc, List.append_assoc] at hsplit
    rw [hsplit, splitFlags_eq_self_iff] at h
    refine h front (mark ++ (word ++ ofString "\n")) [word] ?_ (.last hm hw rfl)
    rw [List.append_assoc, List.append_assoc]
  · intro h
    rcases exists_row_of_splitFlags t with hall | ⟨row, words, happend, hrow⟩
    · rw [hall]
      exact hall
    rw [splitFlags_eq_self_iff]
    intro front row' words' he hrow'
    rcases hrow'.append_or hrow with hlonger | ⟨front', mark, word, hm, hw, rfl⟩
    · have hlength := length_splitFlags_le hlonger front
      rw [← List.append_assoc, ← he, happend, he, List.length_append] at hlength
      have hpos := List.length_pos_of_mem (List.mem_of_head? hrow'.head?_eq)
      omega
    · refine h ⟨front ++ front', mark, word, row, words, ?_, hm, hw, hrow⟩
      rw [← happend, he]
      simp [ofString]

/-- Of two lines that both end in a flag only the second one loses it, and the first one still
would. -/
theorem splitFlags_leaves_private :
    splitFlags "!1d20 --private\n --loud" = (ofString "!1d20 --private\n", [ofString "loud"]) ∧
      splitFlags "!1d20 --private\n" = (ofString "!1d20", [ofString "private"]) := by
  decide +kernel

end Text

end DiceBot
