import Mathlib.Data.List.TakeWhile
import DiceBot.Flag
import DiceBot.Proofs.Token.Cut

/-!
# Rows of flags

What a row of flags looks like, said without the reader that finds it: marks and words in turns,
and perhaps a line end. No word goes on into the mark behind it, so a row can be read in one way
only. A message keeps everything exactly if nothing at its end is such a row.

## Main definitions

* `Text.IsWord`: the words of flags
* `Text.IsFlagRow`: a row of flags and its words

## Main results

* `Text.flagRow?_eq_some_iff`: the reader finds exactly the rows
* `Text.splitFlags_eq_self_iff`: the messages of which nothing is split off
-/

namespace DiceBot

namespace Text

/-- One word character or more, and nothing else. -/
def IsWord (t : Text) : Prop :=
  t ≠ [] ∧ ∀ c ∈ t, c.isWord = true

/-- A row of flags up to the end of a text, and the words of the flags. -/
inductive IsFlagRow : Text → List Text → Prop where
  | last {mark word rest : Text} : mark ∈ flagMarks → word.IsWord → isRowEnd rest = true →
      IsFlagRow (mark ++ (word ++ rest)) [word]
  | more {mark word row : Text} {words : List Text} : mark ∈ flagMarks → word.IsWord →
      IsFlagRow row words → IsFlagRow (mark ++ (word ++ row)) (word :: words)

theorem mem_flagMarks_iff {mark : Text} :
    mark ∈ flagMarks ↔ mark = ofString " --" ∨ mark = ofString " —" := by
  simp [flagMarks]

theorem isRowEnd_iff {t : Text} : isRowEnd t = true ↔ t = [] ∨ t = ofString "\n" := by
  simp [isRowEnd]

theorem IsWord.notMem {word : Text} (hw : word.IsWord) {c : CodePoint} (hc : c.isWord = false) :
    c ∉ word := by
  intro h
  rw [hw.2 c h] at hc
  cases hc

/-- What stands before a code point, and begins with a text that does not hold it when taken
together with what stands behind, begins with the whole text. -/
theorem exists_append_of_notMem {start front behind rest : Text} {c : CodePoint} (hc : c ∉ start)
    (h : front ++ c :: behind = start ++ rest) :
    ∃ cut, front = start ++ cut ∧ rest = cut ++ c :: behind := by
  rcases List.append_eq_append_iff.mp h with ⟨cut, hstart, hrest⟩ | ⟨cut, hfront, hrest⟩
  · cases cut with
    | nil => exact ⟨[], by rw [hstart, List.append_nil, List.append_nil], hrest.symm⟩
    | cons d cut =>
      obtain ⟨rfl, -⟩ := List.cons_eq_cons.mp hrest
      refine absurd ?_ hc
      rw [hstart]
      exact List.mem_append_right _ List.mem_cons_self
  · exact ⟨cut, hfront, hrest⟩

/-! ## One flag -/

theorem findSome?_flagMarks_append {mark : Text} (h : mark ∈ flagMarks) (rest : Text) :
    flagMarks.findSome? (mark ++ rest).dropStart? = some rest := by
  rcases mem_flagMarks_iff.mp h with rfl | rfl
  · simp [flagMarks, ofString]
  · have hne : CodePoint.ofChar '-' ≠ CodePoint.ofChar '—' := by decide
    simp [flagMarks, ofString, hne]

theorem head?_of_mem_flagMarks {mark : Text} (h : mark ∈ flagMarks) (rest : Text) :
    (mark ++ rest).head? = some (CodePoint.ofChar ' ') := by
  rcases mem_flagMarks_iff.mp h with rfl | rfl
  · rfl
  · rfl

/-- A flag is taken with its whole word. -/
theorem takeFlag?_append {mark word rest : Text} (hm : mark ∈ flagMarks) (hw : word.IsWord)
    (hr : ∀ c ∈ rest.head?, c.isWord = false) :
    takeFlag? (mark ++ (word ++ rest)) = some (word, rest) := by
  have hstop : rest.takeWhile CodePoint.isWord = [] ∧ rest.dropWhile CodePoint.isWord = rest := by
    cases rest with
    | nil => exact ⟨rfl, rfl⟩
    | cons c rest =>
      have hc := hr c rfl
      simp [hc]
  rw [takeFlag?, findSome?_flagMarks_append hm]
  simp [List.takeWhile_append_of_pos hw.2, List.dropWhile_append_of_pos hw.2, hstop.1, hstop.2,
    hw.1]

theorem takeFlag?_eq_some {t word rest : Text} (h : takeFlag? t = some (word, rest)) :
    ∃ mark ∈ flagMarks, word.IsWord ∧ t = mark ++ (word ++ rest) ∧
      ∀ c ∈ rest.head?, c.isWord = false := by
  unfold takeFlag? at h
  split at h
  · cases h
  rename_i behind hb
  dsimp only at h
  split at h
  · cases h
  rename_i hne
  cases h
  obtain ⟨mark, hm, hd⟩ := List.exists_of_findSome?_eq_some hb
  refine ⟨mark, hm, ⟨hne, fun c hc => List.mem_takeWhile_imp hc⟩, ?_, fun c hc => ?_⟩
  · rw [List.takeWhile_append_dropWhile]
    exact dropStart?_eq_some hd
  · have := List.head?_dropWhile_not CodePoint.isWord behind
    rw [Option.mem_def.mp hc] at this
    simpa using this

/-! ## Rows -/

theorem IsFlagRow.head?_eq {row : Text} {words : List Text} (h : row.IsFlagRow words) :
    row.head? = some (CodePoint.ofChar ' ') := by
  cases h with
  | last hm _ _ => exact head?_of_mem_flagMarks hm _
  | more hm _ _ => exact head?_of_mem_flagMarks hm _

/-- A row does not go on with the word of the flag before it. -/
theorem IsFlagRow.isWord_of_mem_head? {row : Text} {words : List Text} (h : row.IsFlagRow words) :
    ∀ c ∈ row.head?, c.isWord = false := by
  rw [h.head?_eq]
  rintro c ⟨⟩
  decide +kernel

theorem isWord_of_isRowEnd {rest : Text} (h : isRowEnd rest = true) :
    ∀ c ∈ rest.head?, c.isWord = false := by
  rcases isRowEnd_iff.mp h with rfl | rfl
  · simp
  · rintro c ⟨⟩
    decide +kernel

/-- Behind the last flag of a row there is no other. -/
theorem IsFlagRow.isRowEnd_eq_false {row : Text} {words : List Text} (h : row.IsFlagRow words) :
    isRowEnd row = false := by
  have hhead := h.head?_eq
  by_contra hend
  rw [Bool.not_eq_false, isRowEnd_iff] at hend
  rcases hend with rfl | rfl
  · cases hhead
  · revert hhead
    decide

theorem flagRow?_of_none {t : Text} (h : takeFlag? t = none) : flagRow? t = none := by
  rw [flagRow?]
  split
  · rfl
  · simp_all

theorem flagRow?_of_some {t word rest : Text} (h : takeFlag? t = some (word, rest)) :
    flagRow? t =
      if isRowEnd rest then some [word] else (flagRow? rest).map (word :: ·) := by
  rw [flagRow?]
  split
  · simp_all
  · rename_i he
    rw [h] at he
    cases he
    rfl

theorem IsFlagRow.flagRow?_eq {row : Text} {words : List Text} (h : row.IsFlagRow words) :
    flagRow? row = some words := by
  induction h with
  | last hm hw hend =>
    rw [flagRow?_of_some (takeFlag?_append hm hw (isWord_of_isRowEnd hend)), if_pos hend]
  | more hm hw hrow ih =>
    rw [flagRow?_of_some (takeFlag?_append hm hw hrow.isWord_of_mem_head?),
      if_neg (by simp [hrow.isRowEnd_eq_false]), ih]
    rfl

/-- The reader finds exactly the rows of flags. -/
theorem flagRow?_eq_some_iff {t : Text} {words : List Text} :
    flagRow? t = some words ↔ t.IsFlagRow words := by
  refine ⟨fun h => ?_, IsFlagRow.flagRow?_eq⟩
  -- on the length, since a flag takes several code points
  induction hn : t.length using Nat.strong_induction_on generalizing t words with
  | _ n ih =>
    cases hf : takeFlag? t with
    | none =>
      rw [flagRow?_of_none hf] at h
      cases h
    | some found =>
      obtain ⟨word, rest⟩ := found
      obtain ⟨mark, hm, hw, rfl, _⟩ := takeFlag?_eq_some hf
      rw [flagRow?_of_some hf] at h
      split at h
      · rename_i hend
        cases h
        exact .last hm hw hend
      · obtain ⟨words, hrest, rfl⟩ := Option.map_eq_some_iff.mp h
        exact .more hm hw (ih rest.length (hn ▸ takeFlag?_length hf) hrest rfl)

/-- A row ends with a flag. -/
theorem IsFlagRow.exists_last {row : Text} {words : List Text} (h : row.IsFlagRow words) :
    ∃ front mark word rest, row = front ++ (mark ++ (word ++ rest)) ∧ mark ∈ flagMarks ∧
      word.IsWord ∧ isRowEnd rest = true := by
  induction h with
  | @last mark word rest hm hw hend => exact ⟨[], mark, word, rest, rfl, hm, hw, hend⟩
  | @more mark word row words _ _ _ ih =>
    obtain ⟨front, mark', word', rest, rfl, hm, hw, hend⟩ := ih
    exact ⟨mark ++ (word ++ front), mark', word', rest, by simp, hm, hw, hend⟩

/-! ## Messages -/

/-- A row is split off as a whole. -/
theorem IsFlagRow.splitFlags_eq {row : Text} {words : List Text} (h : row.IsFlagRow words) :
    row.splitFlags = ([], words) := by
  obtain ⟨rest, hrest⟩ := List.head?_eq_some_iff.mp h.head?_eq
  rw [hrest, splitFlags, ← hrest, h.flagRow?_eq]

/-- A code point at which no row begins is kept. -/
theorem splitFlags_of_none {c : CodePoint} {rest : Text} (h : flagRow? (c :: rest) = none) :
    splitFlags (c :: rest) = (c :: (splitFlags rest).1, (splitFlags rest).2) := by
  rw [splitFlags, h]

/-- Nothing is split off a message exactly if no row of flags stands at its end. -/
theorem splitFlags_eq_self_iff {t : Text} :
    t.splitFlags = (t, []) ↔ ∀ front row words, t = front ++ row → ¬ row.IsFlagRow words := by
  induction t with
  | nil =>
    refine iff_of_true rfl fun front row words he h => ?_
    obtain ⟨_, rfl⟩ := List.append_eq_nil_iff.mp he.symm
    have := h.isRowEnd_eq_false
    cases this
  | cons c rest ih =>
    cases hrow : flagRow? (c :: rest) with
    | some words =>
      have hrow : IsFlagRow (c :: rest) words := flagRow?_eq_some_iff.mp hrow
      rw [hrow.splitFlags_eq]
      exact iff_of_false (by simp) fun h => h [] (c :: rest) words rfl hrow
    | none =>
      rw [splitFlags_of_none hrow]
      constructor
      · intro h front row words he hr
        have hrest : splitFlags rest = (rest, []) := by
          rw [Prod.ext_iff] at h ⊢
          exact ⟨(List.cons.inj h.1).2, h.2⟩
        cases front with
        | nil =>
          cases he
          rw [hr.flagRow?_eq] at hrow
          cases hrow
        | cons d front => exact ih.mp hrest front row words (List.cons.inj he).2 hr
      · intro h
        rw [ih.mpr fun front row words he => h (c :: front) row words (by rw [he]; rfl)]

end Text

end DiceBot
