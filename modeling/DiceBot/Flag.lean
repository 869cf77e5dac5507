import DiceBot.Text.Basic
import DiceBot.Text.Word

/-!
# Flags

Flags stand at the end of a message, each behind one space and two hyphens or an em dash. They are
split off only as a row that reaches the end of the message, where one line end may stand behind.

## Main definitions

* `Text.flagRow?`: the words of a text that is a row of flags
* `Text.splitFlags`: a message without its flags, and their words
-/

namespace DiceBot

namespace Text

/-- What introduces a flag. -/
def flagMarks : List Text :=
  [" --", " —"]

/-- The word of the flag that a text begins with, and the rest. -/
def takeFlag? (t : Text) : Option (Text × Text) :=
  match flagMarks.findSome? t.dropStart? with
  | none => none
  | some rest =>
    let word := rest.takeWhile CodePoint.isWord
    if word = [] then none else some (word, rest.dropWhile CodePoint.isWord)

theorem takeFlag?_length {t word rest : Text} (h : takeFlag? t = some (word, rest)) :
    rest.length < t.length := by
  simp only [takeFlag?] at h
  split at h
  · simp at h
  · rename_i r hr
    split at h
    · simp at h
    · simp only [Option.some.injEq, Prod.mk.injEq] at h
      obtain ⟨rfl, rfl⟩ := h
      obtain ⟨mark, hm, hd⟩ := List.exists_of_findSome?_eq_some hr
      have hl := (List.dropWhile_sublist (l := r) CodePoint.isWord).length_le
      have hlt : r.length < t.length := by
        simp only [dropStart?] at hd
        split at hd
        · rename_i hp
          simp only [Option.some.injEq] at hd
          subst hd
          obtain ⟨s, rfl⟩ := List.isPrefixOf_iff_prefix.mp hp
          simp only [flagMarks, List.mem_cons, List.not_mem_nil, or_false] at hm
          rcases hm with rfl | rfl
          · simp only [ofString, List.length_append, List.length_map, String.length_toList]
            exact Nat.lt_add_of_pos_left (by decide)
          · simp only [ofString, List.length_append, List.length_map, String.length_toList]
            exact Nat.lt_add_of_pos_left (by decide)
        · simp at hd
      omega

/-- Whether a row of flags may end before this rest. -/
def isRowEnd (t : Text) : Bool :=
  t = [] || t = "\n"

/-- The words of a text that is a row of one flag or more up to its end. -/
def flagRow? (t : Text) : Option (List Text) :=
  match h : takeFlag? t with
  | none => none
  | some (word, rest) =>
    have := takeFlag?_length h
    if isRowEnd rest then some [word]
    else (flagRow? rest).map (word :: ·)
termination_by t.length

/-- A message without the longest row of flags at its end, and the words of that row. -/
def splitFlags : Text → Text × List Text
  | [] => ([], [])
  | c :: rest =>
    match flagRow? (c :: rest) with
    | some words => ([], words)
    | none =>
      let (command, words) := splitFlags rest
      (c :: command, words)

end Text

end DiceBot
