import DiceBot.Decimal.Shortest
import DiceBot.Proofs.Decimal.Range

/-!
# Decimals between halves

A decimal that lies among the numbers that round to a magnitude is read as that magnitude: reading
it finds the shift of the magnitude, and rounding its mantissa. Only at a power of two a decimal may
lie below the magnitude at a shift of one less; there its mantissa is rounded up to twice the least
one, which has the same count.

## Main definitions

* `Magnitude.IsNormal`: a mantissa and a shift as a count has them
* `Decimal.numerator`, `Decimal.denominator`: a decimal as a fraction of units

## Main results

* `Magnitude.readsBack_iff`: the decimals that round to a magnitude
* `Magnitude.nearestBits_of_readsBack`: they are read as the magnitude
-/

namespace DiceBot

/-! ## Rounding -/

/-- A fraction is rounded to the number that is at most a half away, to an even one at a half. -/
theorem roundHalfEven_eq {n d m : Nat} (hd : 0 < d) (hlow : 2 * (m * d) ≤ 2 * n + d)
    (hhigh : 2 * n ≤ 2 * (m * d) + d)
    (heven : 2 * (m * d) = 2 * n + d ∨ 2 * n = 2 * (m * d) + d → m % 2 = 0) :
    roundHalfEven n d = m := by
  have hn := Nat.div_add_mod n d
  have hr := Nat.mod_lt n hd
  rw [roundHalfEven]
  generalize n / d = q at hn ⊢
  generalize n % d = r at hn hr ⊢
  subst hn
  rw [Nat.mul_comm d q] at hlow hhigh heven
  rcases lt_trichotomy q m with hq | rfl | hq
  · obtain ⟨k, rfl⟩ := Nat.exists_eq_add_of_lt hq
    have hmul : (q + k + 1) * d = q * d + k * d + d := by ring
    rcases Nat.eq_zero_or_pos k with rfl | hk
    · split <;> omega
    · have hle := Nat.le_mul_of_pos_left d hk
      omega
  · split <;> omega
  · have hmul : (m + 1) * d ≤ q * d := Nat.mul_le_mul_right d hq
    have hsucc : (m + 1) * d = m * d + d := by ring
    omega

/-- A number of units between these powers of two has this shift. -/
theorem log2_sub_eq {q s : Nat} (hlow : s = 0 ∨ fullMantissa * 2 ^ s ≤ q)
    (hhigh : q < 2 * fullMantissa * 2 ^ s) : q.log2 - fullMantissa.log2 = s := by
  have hfull : fullMantissa = 2 ^ 52 := by decide
  rw [hfull, Nat.log2_two_pow]
  rw [hfull, show 2 * 2 ^ 52 * 2 ^ s = 2 ^ (s + 53) by ring] at hhigh
  have hupper : q.log2 < s + 53 := by
    by_cases hq : q = 0
    · rw [hq, Nat.log2_zero]
      omega
    · exact (Nat.log2_lt hq).mpr hhigh
  rcases hlow with rfl | hlow
  · omega
  · rw [hfull, ← Nat.pow_add] at hlow
    have hq : q ≠ 0 := by
      rintro rfl
      exact absurd hlow (Nat.not_le.mpr (Nat.two_pow_pos _))
    have hlower := (Nat.le_log2 hq).mpr hlow
    omega

/-- A quarter of a last place below the power or less, a number is rounded up to it, with a last
place of half the size. -/
theorem roundHalfEven_below_power {w p : Nat} (hp : 0 < p)
    (hlow : (4 * fullMantissa - 1) * (2 * p) ≤ 4 * w) (hhigh : w < fullMantissa * (2 * p)) :
    fullMantissa * p ≤ w ∧ w < 2 * fullMantissa * p ∧
      roundHalfEven w p = 2 * fullMantissa := by
  simp only [fullMantissa] at *
  refine ⟨by omega, by omega, roundHalfEven_eq hp ?_ ?_ fun _ => rfl⟩
  · omega
  · omega

/-- A number that is at most half a last place away from a mantissa is rounded to it. It lies in the
range of its shift. -/
theorem roundHalfEven_at_place {w p m : Nat} (hp : 0 < p) (hzero : m ≠ 0)
    (hlt : m < 2 * fullMantissa)
    (hlow : m * p ≤ w ∨ (4 * m - 2) * p < 4 * w ∨ m % 2 = 0 ∧ 4 * w = (4 * m - 2) * p)
    (hhigh : 4 * w < (4 * m + 2) * p ∨ m % 2 = 0 ∧ 4 * w = (4 * m + 2) * p) :
    (fullMantissa < m → fullMantissa * p ≤ w) ∧ w < 2 * fullMantissa * p ∧
      roundHalfEven w p = m := by
  have hends : (4 * m + 2) * p = 4 * (m * p) + 2 * p ∧ (4 * m - 2) * p + 2 * p = 4 * (m * p) := by
    refine ⟨by ring, ?_⟩
    rw [← Nat.add_mul, Nat.sub_add_cancel (by omega), Nat.mul_assoc]
  have hupper : (m + 1) * p ≤ 2 * fullMantissa * p := Nat.mul_le_mul_right p hlt
  have hsucc : (m + 1) * p = m * p + p := by ring
  obtain ⟨hplus, hminus⟩ := hends
  rw [hplus] at hhigh
  refine ⟨fun hfull => ?_, ?_, roundHalfEven_eq hp ?_ ?_ ?_⟩
  · have hlower : (fullMantissa + 1) * p ≤ m * p := Nat.mul_le_mul_right p hfull
    have hsucc' : (fullMantissa + 1) * p = fullMantissa * p + p := by ring
    omega
  · omega
  · omega
  · omega
  · omega

/-! ## Magnitudes -/

namespace Decimal

/-- The numerator of a decimal as a fraction. -/
def numerator (d : Decimal) : Nat :=
  d.digits * tenTo d.exponent.toNat

/-- The denominator of a decimal as a fraction. -/
def denominator (d : Decimal) : Nat :=
  tenTo (-d.exponent).toNat

theorem denominator_pos (d : Decimal) : 0 < d.denominator :=
  Nat.pow_pos (show 0 < 10 by decide)

end Decimal

namespace Magnitude

/-- The shift of the largest double. -/
def largestShift : Nat := 2045

/-- A magnitude as a count has it: the mantissa has all its bits, or no zero bits stand behind it,
and the magnitude is no larger than the largest. -/
structure IsNormal (x : Magnitude) : Prop where
  mantissa_lt : x.mantissa < 2 * fullMantissa
  full : x.shift = 0 ∨ fullMantissa ≤ x.mantissa
  shift_le : x.shift ≤ largestShift

theorem isNormal_ofBits {bits : Nat} (h : bits < infinityBits) : (ofBits bits).IsNormal := by
  simp only [infinityBits] at h
  constructor <;> simp only [ofBits, fullMantissa, largestShift] <;> omega

/-- The lower end of the numbers that round to a magnitude, in quarters of its last place. -/
def lowQuarters (x : Magnitude) : Nat :=
  if x.isNarrowBelow then 4 * x.mantissa - 1 else 4 * x.mantissa - 2

variable {x : Magnitude} {d : Decimal}

/-- The decimals that round to a magnitude, as fractions of units. -/
theorem readsBack_iff :
    x.readsBack d = true ↔
      (x.lowQuarters * (2 ^ x.shift * d.denominator) < 4 * (d.numerator * unitsInOne) ∨
        x.mantissa % 2 = 0 ∧
          4 * (d.numerator * unitsInOne) = x.lowQuarters * (2 ^ x.shift * d.denominator)) ∧
      (4 * (d.numerator * unitsInOne) < (4 * x.mantissa + 2) * (2 ^ x.shift * d.denominator) ∨
        x.mantissa % 2 = 0 ∧
          4 * (d.numerator * unitsInOne) =
            (4 * x.mantissa + 2) * (2 ^ x.shift * d.denominator)) := by
  have hleft : d.digits * tenTo d.exponent.toNat * (4 * unitsInOne) =
      4 * (d.numerator * unitsInOne) := by
    rw [Decimal.numerator]
    ring
  have hright (q : Nat) : (q <<< x.shift) * tenTo (-d.exponent).toNat =
      q * (2 ^ x.shift * d.denominator) := by
    rw [Nat.shiftLeft_eq, Decimal.denominator]
    ring
  simp only [readsBack, compareQuarters, hleft, hright, lowQuarters, Bool.and_eq_true,
    Bool.or_eq_true, beq_iff_eq, Nat.compare_eq_gt, Nat.compare_eq_lt, Nat.compare_eq_eq]

/-- A fraction of units between these powers of two is read at this shift. -/
theorem nearestBits_at_shift {n d s m : Nat} (hd : 0 < d)
    (hlow : s = 0 ∨ fullMantissa * (2 ^ s * d) ≤ n * unitsInOne)
    (hhigh : n * unitsInOne < 2 * fullMantissa * (2 ^ s * d))
    (hround : roundHalfEven (n * unitsInOne) (2 ^ s * d) = m) :
    DiceBot.nearestBits n d = s * fullMantissa + m := by
  have hshift : (n * unitsInOne / d).log2 - fullMantissa.log2 = s := by
    refine log2_sub_eq (hlow.imp_right fun h => ?_) ?_
    · rwa [Nat.le_div_iff_mul_le hd, Nat.mul_assoc]
    · rwa [Nat.div_lt_iff_lt_mul hd, Nat.mul_assoc]
  rw [DiceBot.nearestBits]
  simp only [hshift, Nat.shiftLeft_eq, Nat.mul_comm d, hround]

/-- Below a power of two the shift is one less, and the mantissa is rounded up to the power. -/
theorem nearestBits_of_below (hnarrow : x.isNarrowBelow = true) (h : x.readsBack d = true)
    (hbelow : d.numerator * unitsInOne < fullMantissa * (2 ^ x.shift * d.denominator)) :
    DiceBot.nearestBits d.numerator d.denominator = x.bits := by
  have hlow := (readsBack_iff.mp h).1
  rw [lowQuarters, if_pos hnarrow] at hlow
  have hle := hlow.elim Nat.le_of_lt fun h => h.2.ge
  simp only [isNarrowBelow, Bool.and_eq_true, decide_eq_true_eq] at hnarrow
  obtain ⟨hmantissa, hshift⟩ := hnarrow
  obtain ⟨k, hk⟩ := Nat.exists_eq_add_of_le' hshift
  have htwice : 2 ^ x.shift * d.denominator = 2 * (2 ^ k * d.denominator) := by
    rw [hk]
    ring
  rw [hmantissa, htwice] at hle
  rw [htwice] at hbelow
  have hplace : 0 < 2 ^ k * d.denominator := Nat.mul_pos (Nat.two_pow_pos k) d.denominator_pos
  obtain ⟨hlower, hupper, hround⟩ := roundHalfEven_below_power hplace hle hbelow
  rw [nearestBits_at_shift d.denominator_pos (.inr hlower) hupper hround, bits, hk, hmantissa]
  ring

/-- The decimals that round to a magnitude are rounded to it. -/
theorem nearestBits_fraction (hx : x.IsNormal) (hzero : x.mantissa ≠ 0)
    (h : x.readsBack d = true) :
    DiceBot.nearestBits d.numerator d.denominator = x.bits := by
  by_cases hbelow : x.isNarrowBelow = true ∧
      d.numerator * unitsInOne < fullMantissa * (2 ^ x.shift * d.denominator)
  · exact nearestBits_of_below hbelow.1 h hbelow.2
  · obtain ⟨hlow, hhigh⟩ := readsBack_iff.mp h
    have hplace : 0 < 2 ^ x.shift * d.denominator :=
      Nat.mul_pos (Nat.two_pow_pos _) d.denominator_pos
    -- at a power of two the decimal lies above, elsewhere from a half below on
    have hlower : x.mantissa * (2 ^ x.shift * d.denominator) ≤ d.numerator * unitsInOne ∨
        (4 * x.mantissa - 2) * (2 ^ x.shift * d.denominator) < 4 * (d.numerator * unitsInOne) ∨
          x.mantissa % 2 = 0 ∧ 4 * (d.numerator * unitsInOne) =
            (4 * x.mantissa - 2) * (2 ^ x.shift * d.denominator) := by
      cases hnarrow : x.isNarrowBelow with
      | true =>
        have hmantissa : x.mantissa = fullMantissa := by
          simp only [isNarrowBelow, Bool.and_eq_true, decide_eq_true_eq] at hnarrow
          exact hnarrow.1
        left
        rw [hmantissa]
        exact Nat.not_lt.mp fun hlt => hbelow ⟨hnarrow, hlt⟩
      | false =>
        right
        rwa [lowQuarters, hnarrow, if_neg Bool.false_ne_true] at hlow
    obtain ⟨habove, hupper, hround⟩ :=
      roundHalfEven_at_place hplace hzero hx.mantissa_lt hlower hhigh
    refine nearestBits_at_shift d.denominator_pos ?_ hupper hround
    by_cases hshift : x.shift = 0
    · exact .inl hshift
    · rcases Nat.eq_or_lt_of_le (hx.full.resolve_left hshift) with hfull | hfull
      · have hnarrow : x.isNarrowBelow = true := by
          simp only [isNarrowBelow, Bool.and_eq_true, decide_eq_true_eq]
          exact ⟨hfull.symm, Nat.pos_of_ne_zero hshift⟩
        exact .inr (Nat.not_lt.mp fun hlt => hbelow ⟨hnarrow, hlt⟩)
      · exact .inr (habove hfull)

/-! ## Places -/

theorem lt_tenTo_digitCount (n : Nat) : n < tenTo (digitCount n) := by
  unfold digitCount
  split
  · rename_i hn
    rw [hn]
    decide
  · exact (Nat.length_toDigits_le_iff (by decide) Nat.length_toDigits_pos).mp le_rfl

theorem tenTo_le_of_ne_zero {n : Nat} (hn : n ≠ 0) : tenTo (digitCount n - 1) ≤ n := by
  by_cases hcount : digitCount n - 1 = 0
  · rw [hcount]
    exact Nat.one_le_iff_ne_zero.mpr hn
  · exact le_of_lt_digitCount (Nat.pos_of_ne_zero hcount) (by omega)

/-- A decimal at a far place behind the point is small. -/
theorem Decimal.numerator_lt_of_place {k : Nat} (hfar : d.place < -k) :
    d.numerator * tenTo k < d.denominator := by
  have hdigits := lt_tenTo_digitCount d.digits
  unfold Decimal.place at hfar
  have hexponent : d.exponent.toNat = 0 := by omega
  have hle : digitCount d.digits + k ≤ (-d.exponent).toNat := by omega
  rw [Decimal.numerator, hexponent, Decimal.denominator]
  calc d.digits * tenTo 0 * tenTo k
      = d.digits * tenTo k := by rw [tenTo, Nat.pow_eq, Nat.pow_zero, Nat.mul_one]
    _ < tenTo (digitCount d.digits) * tenTo k :=
      Nat.mul_lt_mul_of_pos_right hdigits (Nat.pow_pos (by decide))
    _ = tenTo (digitCount d.digits + k) := (Nat.pow_add 10 _ _).symm
    _ ≤ tenTo (-d.exponent).toNat := Nat.pow_le_pow_right (by decide) hle

/-- A decimal at a far place before the point is large. -/
theorem Decimal.le_numerator_of_place {k : Nat} (hdigits : d.digits ≠ 0) (hfar : k < d.place) :
    tenTo k * d.denominator ≤ d.numerator := by
  have hlow := tenTo_le_of_ne_zero hdigits
  unfold Decimal.place at hfar
  have hle : k + (-d.exponent).toNat ≤ digitCount d.digits - 1 + d.exponent.toNat := by omega
  rw [Decimal.numerator, Decimal.denominator]
  calc tenTo k * tenTo (-d.exponent).toNat
      = tenTo (k + (-d.exponent).toNat) := (Nat.pow_add 10 _ _).symm
    _ ≤ tenTo (digitCount d.digits - 1 + d.exponent.toNat) := Nat.pow_le_pow_right (by decide) hle
    _ = tenTo (digitCount d.digits - 1) * tenTo d.exponent.toNat := Nat.pow_add 10 _ _
    _ ≤ d.digits * tenTo d.exponent.toNat := Nat.mul_le_mul_right _ hlow

/-- A decimal that rounds to a magnitude above zero is not too small to be read. -/
theorem not_place_lt_of_readsBack (hzero : x.mantissa ≠ 0) (h : x.readsBack d = true) :
    ¬ d.place < -Decimal.farPlace := by
  intro hfar
  have hlow := (readsBack_iff.mp h).1.elim Nat.le_of_lt fun h => h.2.ge
  have hquarters : 0 < x.lowQuarters := by
    unfold lowQuarters
    split <;> omega
  have hbound : 4 * unitsInOne ≤ tenTo Decimal.farPlace := by decide +kernel
  have hunits : d.denominator ≤ d.numerator * tenTo Decimal.farPlace :=
    calc d.denominator
        ≤ 2 ^ x.shift * d.denominator := Nat.le_mul_of_pos_left _ (Nat.two_pow_pos _)
      _ ≤ x.lowQuarters * (2 ^ x.shift * d.denominator) := Nat.le_mul_of_pos_left _ hquarters
      _ ≤ 4 * (d.numerator * unitsInOne) := hlow
      _ = d.numerator * (4 * unitsInOne) := by ring
      _ ≤ d.numerator * tenTo Decimal.farPlace := Nat.mul_le_mul_left _ hbound
  exact absurd (Decimal.numerator_lt_of_place hfar) (Nat.not_lt.mpr hunits)

/-- A decimal that rounds to a magnitude is not too large to be read. -/
theorem not_lt_place_of_readsBack (hx : x.IsNormal) (hdigits : d.digits ≠ 0)
    (h : x.readsBack d = true) : ¬ Decimal.farPlace < d.place := by
  intro hfar
  have hhigh := (readsBack_iff.mp h).2.elim Nat.le_of_lt fun h => h.2.le
  have hlarge := Decimal.le_numerator_of_place hdigits hfar
  have hmantissa : 4 * x.mantissa + 2 ≤ 8 * fullMantissa := by
    have := hx.mantissa_lt
    omega
  have hpower : 2 ^ x.shift ≤ 2 ^ largestShift := Nat.pow_le_pow_right (by decide) hx.shift_le
  have hbound :
      8 * fullMantissa * 2 ^ largestShift < 4 * (tenTo Decimal.farPlace * unitsInOne) := by
    decide +kernel
  have hle : 4 * (tenTo Decimal.farPlace * unitsInOne) * d.denominator ≤
      8 * fullMantissa * 2 ^ largestShift * d.denominator :=
    calc 4 * (tenTo Decimal.farPlace * unitsInOne) * d.denominator
        = 4 * (tenTo Decimal.farPlace * d.denominator * unitsInOne) := by ring
      _ ≤ 4 * (d.numerator * unitsInOne) :=
        Nat.mul_le_mul_left _ (Nat.mul_le_mul_right _ hlarge)
      _ ≤ (4 * x.mantissa + 2) * (2 ^ x.shift * d.denominator) := hhigh
      _ ≤ 8 * fullMantissa * (2 ^ largestShift * d.denominator) :=
        Nat.mul_le_mul hmantissa (Nat.mul_le_mul_right _ hpower)
      _ = 8 * fullMantissa * 2 ^ largestShift * d.denominator := by
        rw [Nat.mul_assoc (8 * fullMantissa)]
  exact absurd (Nat.le_of_mul_le_mul_right hle d.denominator_pos) (Nat.not_le.mpr hbound)

/-- **The decimals that round to a magnitude are read as it.** -/
theorem nearestBits_of_readsBack (hx : x.IsNormal) (hzero : x.mantissa ≠ 0)
    (hdigits : d.digits ≠ 0) (h : x.readsBack d = true) : d.nearestBits = x.bits := by
  rw [Decimal.nearestBits, if_neg (not_or.mpr ⟨hdigits, not_place_lt_of_readsBack hzero h⟩),
    if_neg (not_lt_place_of_readsBack hx hdigits h)]
  exact nearestBits_fraction hx hzero h

end Magnitude

end DiceBot
