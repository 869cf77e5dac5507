import Mathlib.Data.List.Basic
import DiceBot.Text.Order

/-!
# The order of encoded texts

The bytes that encode a code point tell by the first in which they differ from those of another
which of the two is the greater, and none are the beginning of others. So texts are ordered as
their encodings are.

## Main results

* `CodePoint.utf8_append_lt`: the encoding keeps the order of code points, whatever follows
* `Text.utf8_lt_utf8_iff`: texts are ordered as their encodings
-/

namespace DiceBot

/-- The bytes of a lesser code point come before those of a greater one, whatever follows. -/
theorem CodePoint.utf8_append_lt {a b : CodePoint} (h : a < b) (s t : List Nat) :
    a.utf8 ++ s < b.utf8 ++ t := by
  have hlt : a.toNat < b.toNat := h
  have ha := a.isLt
  have hb := b.isLt
  simp only [utf8]
  -- each of the two takes one to four bytes, and the first ones already tell unless they agree
  repeat' split
  all_goals
    simp only [List.cons_append, List.nil_append, List.cons_lt_cons_iff]
    omega

namespace Text

theorem utf8_cons (c : CodePoint) (t : Text) : utf8 (c :: t) = c.utf8 ++ t.utf8 :=
  List.flatMap_cons

theorem nil_lt_utf8_cons (c : CodePoint) (t : Text) : ([] : List Nat) < utf8 (c :: t) := by
  simp only [utf8_cons, CodePoint.utf8]
  repeat' split
  all_goals exact List.nil_lt_cons _ _

theorem utf8_lt_utf8 {s t : Text} (h : s < t) : s.utf8 < t.utf8 := by
  induction s generalizing t with
  | nil =>
    cases t with
    | nil => exact absurd h (List.not_lt_nil _)
    | cons c t => exact nil_lt_utf8_cons c t
  | cons a s ih =>
    cases t with
    | nil => exact absurd h (List.not_lt_nil _)
    | cons b t =>
      rw [utf8_cons, utf8_cons]
      rcases List.cons_lt_cons_iff.mp h with hab | ⟨rfl, hst⟩
      · exact CodePoint.utf8_append_lt hab _ _
      · exact List.append_left_lt (ih hst)

/-- Texts are ordered as their encodings are. -/
theorem utf8_lt_utf8_iff {s t : Text} : s.utf8 < t.utf8 ↔ s < t := by
  constructor
  · intro h
    rcases lt_trichotomy s t with hst | rfl | hts
    · exact hst
    · exact absurd h (List.lt_irrefl _)
    · exact absurd h (List.lt_asymm (utf8_lt_utf8 hts))
  · exact utf8_lt_utf8

end Text

end DiceBot
