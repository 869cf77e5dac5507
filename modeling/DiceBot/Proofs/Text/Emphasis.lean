import Mathlib.Data.List.Basic
import DiceBot.Dice.Trace

/-!
# Emphasis

The chat sets text in bold type between two pairs of asterisks; an asterisk with a backslash before
it is shown as it is. A message is put together from spans, plain ones and ones in bold type. If no
span has an asterisk of its own that could be taken for one of these, then the bare asterisks of the
message are those around the spans in bold type.

## Main definitions

* `Text.bareStars`: the places of the asterisks without a backslash before them
* `Text.IsSealed`: a text without bare asterisks that escapes nothing that follows it
* `Text.unescaped`: a text without its backslashes
* `Span`, `Span.row`: a message in spans
* `Span.rowMarks`: the places of the asterisks that set off the spans in bold type

## Main results

* `Text.bareStars_append`: the bare asterisks of two texts in a row
* `Text.unescaped_escaped`, `Text.isSealed_escaped`: escaping a text without backslashes
* `Span.bareStars_row`: the bare asterisks of a message
-/

namespace DiceBot

namespace Text

/-- The places of the asterisks without a backslash directly before them. -/
def bareStars (t : Text) : List Nat :=
  (List.range t.length).filter fun i =>
    t[i]? = some (CodePoint.ofChar '*') ∧ (i = 0 ∨ t[i - 1]? ≠ some (CodePoint.ofChar '\\'))

/-- A text without its backslashes. -/
def unescaped (t : Text) : Text :=
  t.filter (· ≠ CodePoint.ofChar '\\')

/-- A text without bare asterisks, and without a backslash at its end. -/
structure IsSealed (t : Text) : Prop where
  bareStars : t.bareStars = []
  getLast : t.getLast? ≠ some (CodePoint.ofChar '\\')

instance (t : Text) : Decidable t.IsSealed :=
  decidable_of_iff (t.bareStars = [] ∧ t.getLast? ≠ some (CodePoint.ofChar '\\'))
    ⟨fun h => ⟨h.1, h.2⟩, fun h => ⟨h.1, h.2⟩⟩

variable {s t : Text}

/-- The bare asterisks of two texts in a row are those of the two, unless the first text ends in
a backslash. -/
theorem bareStars_append (h : s.getLast? ≠ some (CodePoint.ofChar '\\')) :
    (s ++ t).bareStars = s.bareStars ++ t.bareStars.map (s.length + ·) := by
  rw [bareStars, List.length_append, List.range_add, List.filter_append, List.filter_map]
  congr 1
  · refine List.filter_congr fun i hi => ?_
    have hlt := List.mem_range.mp hi
    rw [List.getElem?_append_left hlt, List.getElem?_append_left (by omega)]
  · refine congrArg _ (List.filter_congr fun i hi => ?_)
    rw [Function.comp_apply, List.getElem?_append_right (by omega), Nat.add_sub_cancel_left]
    cases i with
    | zero =>
      by_cases hs : s = []
      · simp [hs]
      · have hlast : (s ++ t)[s.length - 1]? = s.getLast? := by
          rw [List.getLast?_eq_getElem?, List.getElem?_append_left]
          exact Nat.sub_one_lt (mt List.length_eq_zero_iff.mp hs)
        simp [hlast, h]
    | succ i =>
      rw [show s.length + (i + 1) - 1 = s.length + i by omega,
        List.getElem?_append_right (by omega), Nat.add_sub_cancel_left]
      simp

/-! ## Sealed texts -/

theorem isSealed_nil : IsSealed [] := by decide

theorem getLast?_append_ne (hs : s.getLast? ≠ some (CodePoint.ofChar '\\'))
    (ht : t.getLast? ≠ some (CodePoint.ofChar '\\')) :
    (s ++ t).getLast? ≠ some (CodePoint.ofChar '\\') := by
  rw [List.getLast?_append]
  cases hlast : t.getLast? with
  | none => exact hs
  | some c => rwa [hlast] at ht

theorem IsSealed.append (hs : s.IsSealed) (ht : t.IsSealed) : (s ++ t).IsSealed where
  bareStars := by rw [bareStars_append hs.getLast, hs.bareStars, ht.bareStars]; rfl
  getLast := getLast?_append_ne hs.getLast ht.getLast

/-- A text without asterisks and without backslashes. -/
theorem isSealed_of_forall
    (h : ∀ c ∈ t, c ≠ CodePoint.ofChar '*' ∧ c ≠ CodePoint.ofChar '\\') : t.IsSealed where
  bareStars := by
    refine List.filter_eq_nil_iff.mpr fun i _ hi => ?_
    have hstar := (of_decide_eq_true hi).1
    exact (h _ (List.mem_of_getElem? hstar)).1 rfl
  getLast hlast := (h _ (List.mem_of_getLast? hlast)).2 rfl

theorem isSealed_flatMap {α : Type} {f : α → Text} {as : List α} (h : ∀ a ∈ as, (f a).IsSealed) :
    IsSealed (as.flatMap f) := by
  induction as with
  | nil => exact isSealed_nil
  | cons a as ih =>
    obtain ⟨ha, has⟩ := List.forall_mem_cons.mp h
    exact ha.append (ih has)

theorem isSealed_joined {separator : Text} {parts : List Text} (hs : separator.IsSealed)
    (h : ∀ part ∈ parts, part.IsSealed) : (joined separator parts).IsSealed := by
  rcases parts.eq_nil_or_concat with rfl | ⟨front, last, rfl⟩
  · exact isSealed_nil
  · rw [List.concat_eq_append] at h ⊢
    obtain ⟨hfront, hlast⟩ := List.forall_mem_append.mp h
    rw [joined_concat]
    exact (isSealed_flatMap fun part hpart => (hfront part hpart).append hs).append
      (hlast last List.mem_cons_self)

/-! ## Escaped texts -/

/-- Escaping leaves no bare asterisk in a text without backslashes. -/
theorem isSealed_escaped (h : CodePoint.ofChar '\\' ∉ t) : t.escaped.IsSealed := by
  refine isSealed_flatMap fun c hc => ?_
  split
  · decide
  · rename_i hstar
    refine isSealed_of_forall (List.forall_mem_singleton.mpr ⟨hstar, ?_⟩)
    rintro rfl
    exact h hc

/-- A text without backslashes is its escaped text without them. -/
theorem unescaped_escaped (h : CodePoint.ofChar '\\' ∉ t) : t.escaped.unescaped = t := by
  unfold escaped unescaped
  rw [List.filter_flatMap]
  refine (List.flatMap_congr fun c hc => ?_).trans t.flatMap_singleton'
  split
  · rename_i hstar
    cases hstar
    decide
  · have hne : c ≠ CodePoint.ofChar '\\' := fun he => h (he ▸ hc)
    rw [List.filter_singleton, decide_eq_true hne]
    rfl

end Text

/-! ## Messages in spans -/

/-- A piece of a message: plain text, or text in bold type. -/
inductive Span where
  /-- Plain text. -/
  | plain (content : Text)
  /-- Text in bold type. -/
  | strong (content : Text)
deriving DecidableEq

namespace Span

/-- The text that is shown. -/
def content : Span → Text
  | plain t => t
  | strong t => t

/-- The text that is sent. -/
def text : Span → Text
  | plain t => t
  | strong t => "**" ++ t ++ "**"

/-- The places of the asterisks that set off a span. -/
def marks : Span → List Nat
  | plain _ => []
  | strong t => [0, 1, t.length + 2, t.length + 3]

/-- The text of a message. -/
def row (spans : List Span) : Text :=
  spans.flatMap text

/-- The places of the asterisks that set off the spans of a message. -/
def rowMarks : List Span → List Nat
  | [] => []
  | s :: rest => s.marks ++ (rowMarks rest).map (s.text.length + ·)

theorem row_append (spans rest : List Span) : row (spans ++ rest) = row spans ++ row rest :=
  List.flatMap_append

/-- The text of blocks of spans, each with a separator behind it. -/
theorem row_flatMap (separator : Text) (blocks : List (List Span)) :
    row (blocks.flatMap (· ++ [plain separator])) = (blocks.map row).flatMap (· ++ separator) := by
  induction blocks with
  | nil => rfl
  | cons block rest ih =>
    rw [List.flatMap_cons, row_append, ih, row_append, List.map_cons, List.flatMap_cons]
    simp [row, text]

theorem bareStars_text {s : Span} (h : s.content.IsSealed) :
    s.text.bareStars = s.marks ∧ s.text.getLast? ≠ some (CodePoint.ofChar '\\') := by
  cases s with
  | plain t => exact ⟨h.bareStars, h.getLast⟩
  | strong t =>
    have ht : t.IsSealed := h
    have hopening : (Text.ofString "**").bareStars = [0, 1] := by decide
    have hlast : (Text.ofString "**").getLast? ≠ some (CodePoint.ofChar '\\') := by decide
    have hfront := Text.getLast?_append_ne hlast ht.getLast
    refine ⟨?_, Text.getLast?_append_ne hfront hlast⟩
    have hlength : (Text.ofString "**" ++ t).length = t.length + 2 := by
      rw [List.length_append, Nat.add_comm]
      rfl
    rw [text, Text.bareStars_append hfront, Text.bareStars_append hlast, hopening, ht.bareStars,
      hlength]
    rfl

/-- **The bare asterisks of a message are those around its spans in bold type**, if its spans have
none of their own. -/
theorem bareStars_row {spans : List Span} (h : ∀ s ∈ spans, s.content.IsSealed) :
    (row spans).bareStars = rowMarks spans := by
  induction spans with
  | nil => rfl
  | cons s rest ih =>
    obtain ⟨hs, hrest⟩ := List.forall_mem_cons.mp h
    obtain ⟨hmarks, hlast⟩ := bareStars_text hs
    rw [rowMarks, ← ih hrest, ← hmarks, ← Text.bareStars_append hlast]
    rfl

end Span

end DiceBot
