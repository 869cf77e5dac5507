import DiceBot.Proofs.Text.Numeral
import DiceBot.Text.Quoted

/-!
# Printable texts

A text of printable characters stays on its line: no character that ends a line is printable. What
is shown between quotation marks is printable, whatever it is.

## Main definitions

* `CodePoint.isLineBreak`, `Text.IsLine`: the ends of lines, and the texts without any
* `Text.IsPrintable`: a text of printable characters

## Main results

* `Text.IsPrintable.isLine`: a text of printable characters is a single line
* `Text.isPrintable_quoted`: a quoted text is printable
-/

namespace DiceBot

/-- The code points at which a line ends: line feed, vertical tab, form feed and carriage return,
the separators of files, groups and records, next line, and the separators of lines and
paragraphs. -/
def lineBreakRanges : List (Nat × Nat) :=
  [(0xA, 0xD), (0x1C, 0x1E), (0x85, 0x85), (0x2028, 0x2029)]

namespace CodePoint

/-- A code point at which a line ends. -/
def isLineBreak (c : CodePoint) : Bool :=
  c.isIn lineBreakRanges

/-- No line ends at a printable character. -/
theorem isLineBreak_of_isPrintable {c : CodePoint} (h : c.isPrintable = true) :
    c.isLineBreak = false := by
  have apart : ∀ p ∈ printableRanges, ∀ r ∈ lineBreakRanges, p.2 < r.1 ∨ r.2 < p.1 := by
    decide +kernel
  obtain ⟨p, hp, hc⟩ := List.any_eq_true.mp h
  refine List.any_eq_false.mpr fun r hr hb => ?_
  have := apart p hp r hr
  simp only [Bool.and_eq_true, decide_eq_true_eq] at hc hb
  omega

/-- The digits of a number are printable, those of the hexadecimal system included. -/
theorem isPrintable_of_mem_toDigits {b n : Nat} (hb : 1 < b) (hle : b ≤ 16) {c : Char}
    (h : c ∈ Nat.toDigits b n) : (ofChar c).isPrintable = true := by
  have hdigit : ∀ d < 16, (ofChar (Nat.digitChar d)).isPrintable = true := by decide
  induction n using Nat.strong_induction_on with
  | _ n ih =>
    rw [Nat.toDigits_eq_if hb] at h
    split at h
    · cases List.mem_singleton.mp h
      exact hdigit n (by omega)
    · rcases List.mem_append.mp h with h | h
      · exact ih (n / b) (Nat.div_lt_self (by omega) hb) h
      · cases List.mem_singleton.mp h
        exact hdigit _ ((Nat.mod_lt n (by omega)).trans_le hle)

end CodePoint

namespace Text

variable {s t : Text}

/-- A text without an end of a line. -/
def IsLine (t : Text) : Prop :=
  ∀ c ∈ t, c.isLineBreak = false

/-- A text of printable characters. -/
def IsPrintable (t : Text) : Prop :=
  ∀ c ∈ t, c.isPrintable = true

instance (t : Text) : Decidable t.IsLine :=
  inferInstanceAs (Decidable (∀ c ∈ t, c.isLineBreak = false))

instance (t : Text) : Decidable t.IsPrintable :=
  inferInstanceAs (Decidable (∀ c ∈ t, c.isPrintable = true))

/-- A text of printable characters is a single line. -/
theorem IsPrintable.isLine (h : t.IsPrintable) : t.IsLine :=
  fun c hc => CodePoint.isLineBreak_of_isPrintable (h c hc)

theorem IsPrintable.append (hs : s.IsPrintable) (ht : t.IsPrintable) : (s ++ t).IsPrintable :=
  List.forall_mem_append.mpr ⟨hs, ht⟩

theorem isPrintable_natural (n : Nat) : (natural n).IsPrintable := by
  intro c hc
  obtain ⟨d, hd, rfl⟩ := List.mem_map.mp hc
  exact CodePoint.isPrintable_of_mem_toDigits (by decide) (by decide) hd

theorem isPrintable_hex (width n : Nat) : (hex width n).IsPrintable := by
  refine IsPrintable.append (fun c hc => ?_) fun c hc => ?_
  · cases List.eq_of_mem_replicate hc
    decide
  · obtain ⟨d, hd, rfl⟩ := List.mem_map.mp hc
    exact CodePoint.isPrintable_of_mem_toDigits (by decide) (by decide) hd

theorem quoteMark_eq (t : Text) :
    t.quoteMark = CodePoint.ofChar '"' ∨ t.quoteMark = CodePoint.ofChar '\'' := by
  unfold quoteMark
  split
  · exact .inl rfl
  · exact .inr rfl

end Text

/-- What stands for a code point is printable: it is the character itself only if that is. -/
theorem CodePoint.isPrintable_quoted {mark : CodePoint} (hmark : mark.isPrintable = true)
    (c : CodePoint) : (quoted mark c).IsPrintable := by
  unfold quoted
  split
  · rename_i hescaped
    have hc : c.isPrintable = true := by
      rcases hescaped with rfl | rfl
      · exact hmark
      · decide
    exact List.forall_mem_cons.mpr ⟨by decide, List.forall_mem_singleton.mpr hc⟩
  split
  · decide
  split
  · decide
  split
  · decide
  split
  · rename_i hc
    exact List.forall_mem_singleton.mpr hc
  split
  · exact Text.IsPrintable.append (by decide) (Text.isPrintable_hex 2 _)
  split
  · exact Text.IsPrintable.append (by decide) (Text.isPrintable_hex 4 _)
  · exact Text.IsPrintable.append (by decide) (Text.isPrintable_hex 8 _)

/-- **A quoted text is printable**, whatever stands between the marks. -/
theorem Text.isPrintable_quoted (t : Text) : t.quoted.IsPrintable := by
  have hmark : t.quoteMark.isPrintable = true := by
    rcases t.quoteMark_eq with h | h
    · rw [h]
      decide
    · rw [h]
      decide
  refine List.forall_mem_cons.mpr ⟨hmark, List.forall_mem_append.mpr ⟨fun c hc => ?_, ?_⟩⟩
  · obtain ⟨a, -, hc⟩ := List.mem_flatMap.mp hc
    exact CodePoint.isPrintable_quoted hmark a c hc
  · exact List.forall_mem_singleton.mpr hmark

end DiceBot
