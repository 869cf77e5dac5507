import DiceBot.Decimal.Notation
import DiceBot.Proofs.Text.Numeral

/-!
# The signs of written numbers

Numbers are written with digits, the two signs, the point, the mark of an exponent, and the letters
in the names of what is no finite number. No other code point gets into a message with a number.

## Main definitions

* `Text.IsNumeric`: a text of nothing but these code points

## Main results

* `Text.isNumeric_whole`: a double is written with nothing else
-/

namespace DiceBot

namespace Text

/-- The code points that numbers are written with, besides digits. -/
def numberMarks : Text := "+-.einfa"

/-- A text of nothing but the code points that numbers are written with. -/
def IsNumeric (t : Text) : Prop :=
  ∀ c ∈ t, c.isDigit = true ∨ c ∈ numberMarks

instance (t : Text) : Decidable t.IsNumeric :=
  inferInstanceAs (Decidable (∀ c ∈ t, c.isDigit = true ∨ c ∈ numberMarks))

variable {s t : Text}

theorem IsNumeric.append (hs : s.IsNumeric) (ht : t.IsNumeric) : (s ++ t).IsNumeric :=
  List.forall_mem_append.mpr ⟨hs, ht⟩

theorem IsNumeric.cons {c : CodePoint} (hc : IsNumeric [c]) (ht : t.IsNumeric) :
    IsNumeric (c :: t) :=
  hc.append ht

/-- What a numeric text is made of is numeric. -/
theorem IsNumeric.of_subset (ht : t.IsNumeric) (h : s ⊆ t) : s.IsNumeric :=
  fun c hc => ht c (h hc)

theorem isNumeric_natural (n : Nat) : (natural n).IsNumeric :=
  fun c hc => .inl ((isDigits_natural n).2 c hc)

theorem isNumeric_zeros (n : Nat) : IsNumeric (List.replicate n (CodePoint.ofChar '0')) := by
  intro c hc
  cases List.eq_of_mem_replicate hc
  exact .inl (by decide)

theorem isNumeric_integer (n : Int) : (integer n).IsNumeric := by
  cases n with
  | ofNat n => exact isNumeric_natural n
  | negSucc n => exact .cons (by decide) (isNumeric_natural _)

theorem isNumeric_exponent (e : Int) : (exponent e).IsNumeric := by
  have hdigits := isNumeric_natural e.natAbs
  refine .cons (by decide) (.cons ?_ ?_)
  · split <;> decide
  · split
    · exact .cons (by decide) hdigits
    · exact hdigits

end Text

/-- Both notations put marks and zeros around the digits, or among them. -/
theorem Decimal.isNumeric_laidOut (d : Decimal) : d.laidOut.IsNumeric := by
  have hdigits := Text.isNumeric_natural d.digits
  have htake (n : Nat) := hdigits.of_subset (List.take_subset n _)
  have hdrop (n : Nat) := hdigits.of_subset (List.drop_subset n _)
  unfold laidOut
  dsimp only
  split
  · split
    · exact (Text.IsNumeric.append (by decide) (Text.isNumeric_zeros _)).append hdigits
    split
    · exact (hdigits.append (Text.isNumeric_zeros _)).append (by decide)
    · exact ((htake _).append (by decide)).append (hdrop _)
  · refine ((htake 1).append ?_).append (Text.isNumeric_exponent _)
    split
    · decide
    · exact .cons (by decide) (hdrop 1)

namespace Text

theorem isNumeric_float (x : Float) : (float x).IsNumeric := by
  have hsign : IsNumeric (if floatIsNegative x then "-" else []) := by
    split <;> decide
  unfold float
  cases Extent.ofFloat x with
  | finite m => exact hsign.append m.shortest.isNumeric_laidOut
  | infinite => exact IsNumeric.append hsign (by decide)
  | undefined => exact (by decide : IsNumeric "nan")

/-- **A double is written with digits and the marks of numbers only.** -/
theorem isNumeric_whole (x : Float) : (whole x).IsNumeric := by
  unfold whole
  split
  · exact isNumeric_integer _
  · exact isNumeric_float x

end Text

end DiceBot
