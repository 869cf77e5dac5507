import Mathlib.Tactic.Ring
import Mathlib.Tactic.Linarith
import DiceBot.Text.Numeral

/-!
# The range of doubles

Which natural numbers have a double: those below the middle between the largest finite double and
the power of two behind it. The middle itself is rounded to the even side, which is infinity.

## Main definitions

* `naturalBound`: the least natural number that is too large for a double

## Main results

* `roundHalfEven_lt_iff`: which fractions are rounded to less than an even number
* `floatOfInteger_eq_error_iff`: which integers have no double
-/

namespace DiceBot

/-- The least natural number that is too large for a double: a half unit of the last place below
2 ^ 1024. -/
def naturalBound : Nat := (2 ^ 54 - 1) * 2 ^ 970

/-- A fraction is rounded to less than an even number when it lies more than a half below. -/
theorem roundHalfEven_lt_iff {n d k : Nat} (hd : 0 < d) (hk : 0 < k) :
    roundHalfEven n d < 2 * k ↔ 2 * n < (4 * k - 1) * d := by
  have hn := Nat.div_add_mod n d
  have hr := Nat.mod_lt n hd
  rw [roundHalfEven]
  generalize n / d = q at hn ⊢
  generalize n % d = r at hn hr ⊢
  subst hn
  obtain ⟨j, rfl⟩ := Nat.exists_eq_add_of_le' hk
  have hfour : (4 * (j + 1) - 1) * d = 4 * (j * d) + 3 * d := by
    rw [show 4 * (j + 1) - 1 = 4 * j + 3 by omega]
    ring
  rw [hfour]
  rcases lt_trichotomy q (2 * j + 1) with hq | rfl | hq
  · have hle : d * q ≤ d * (2 * j) := Nat.mul_le_mul_left d (by omega)
    have hswap : d * (2 * j) = 2 * (j * d) := by ring
    split <;> omega
  · have hswap : d * (2 * j + 1) = 2 * (j * d) + d := by ring
    split <;> omega
  · have hle : d * (2 * j + 2) ≤ d * q := Nat.mul_le_mul_left d hq
    have hswap : d * (2 * j + 2) = 2 * (j * d) + 2 * d := by ring
    split <;> omega

theorem le_roundHalfEven (n d : Nat) : n / d ≤ roundHalfEven n d := by
  rw [roundHalfEven]
  split <;> omega

theorem roundHalfEven_le (n d : Nat) : roundHalfEven n d ≤ n / d + 1 := by
  rw [roundHalfEven]
  split <;> omega

/-! ## Powers of two -/

theorem log2_mul_two_pow {n : Nat} (hn : n ≠ 0) (k : Nat) : (n * 2 ^ k).log2 = n.log2 + k := by
  obtain ⟨hle, hlt⟩ := (Nat.log2_eq_iff hn).mp rfl
  have hk := Nat.two_pow_pos k
  refine (Nat.log2_eq_iff (Nat.mul_ne_zero hn hk.ne')).mpr ?_
  rw [Nat.pow_add, Nat.add_right_comm, Nat.pow_add _ (_ + 1)]
  exact ⟨Nat.mul_le_mul_right _ hle, Nat.mul_lt_mul_of_pos_right hlt hk⟩

theorem log2_lt_add_iff {n : Nat} (hn : n ≠ 0) (j k : Nat) :
    n.log2 < j + k ↔ n < 2 ^ j * 2 ^ k := by
  rw [Nat.log2_lt hn, Nat.pow_add]

/-- Of a number the first bits remain. -/
theorem mul_two_pow_div_log2 {n : Nat} (hn : n ≠ 0) (j k : Nat) :
    2 ^ j ≤ n * 2 ^ (j + k) / 2 ^ (n.log2 + k) ∧
      n * 2 ^ (j + k) / 2 ^ (n.log2 + k) < 2 ^ (j + 1) := by
  obtain ⟨hle, hlt⟩ := (Nat.log2_eq_iff hn).mp rfl
  have hlog := Nat.two_pow_pos n.log2
  rw [Nat.pow_add 2 j, Nat.pow_add, ← Nat.mul_assoc,
    Nat.mul_div_mul_right _ _ (Nat.two_pow_pos k), Nat.le_div_iff_mul_le hlog,
    Nat.div_lt_iff_lt_mul hlog, Nat.mul_comm n]
  constructor
  · exact Nat.mul_le_mul_left _ hle
  · calc 2 ^ j * n < 2 ^ j * 2 ^ (n.log2 + 1) :=
          Nat.mul_lt_mul_of_pos_left hlt (Nat.two_pow_pos j)
      _ = 2 ^ (j + 1) * 2 ^ n.log2 := by ring

/-- A number is rounded to less than `j + 2` bits when it lies below the middle behind them. -/
theorem roundHalfEven_mul_two_pow_lt_iff (n i j k : Nat) :
    roundHalfEven (n * 2 ^ k) (2 ^ (i + (k + 1))) < 2 * 2 ^ j ↔ n < (4 * 2 ^ j - 1) * 2 ^ i := by
  rw [roundHalfEven_lt_iff (Nat.two_pow_pos _) (Nat.two_pow_pos j),
    show 2 * (n * 2 ^ k) = n * 2 ^ (k + 1) by ring, Nat.pow_add 2 i, ← Nat.mul_assoc,
    Nat.mul_lt_mul_right (Nat.two_pow_pos _)]

/-! ## Natural numbers -/

/-- The natural numbers whose nearest double is finite. -/
theorem nearestBits_natural_lt_iff {n : Nat} (hn : n ≠ 0) :
    nearestBits n 1 < infinityBits ↔ n < naturalBound := by
  -- the exponent is a variable, since the powers of two must not be evaluated
  obtain ⟨k, hk⟩ : ∃ k, k = 1022 := ⟨_, rfl⟩
  obtain ⟨hlow, hhigh⟩ := mul_two_pow_div_log2 hn 52 k
  have hround := le_roundHalfEven (n * 2 ^ (52 + k)) (2 ^ (n.log2 + k))
  have hround' := roundHalfEven_le (n * 2 ^ (52 + k)) (2 ^ (n.log2 + k))
  have hmiddle := roundHalfEven_mul_two_pow_lt_iff n 970 52 (52 + k)
  rw [nearestBits, unitsInOne, Nat.one_shiftLeft, Nat.div_one, show 1074 = 52 + k by omega,
    log2_mul_two_pow hn, show fullMantissa.log2 = 52 by decide,
    show n.log2 + (52 + k) - 52 = n.log2 + k by omega, Nat.one_shiftLeft, fullMantissa,
    infinityBits]
  rcases lt_trichotomy n.log2 1023 with hlog | hlog | hlog
  · have hbound : n < naturalBound :=
      calc n < 2 ^ 53 * 2 ^ 970 := (log2_lt_add_iff hn 53 970).mp hlog
        _ ≤ naturalBound := Nat.mul_le_mul_right _ (by decide)
    rw [iff_true_right hbound]
    omega
  · rw [show 970 + (52 + k + 1) = n.log2 + k by omega] at hmiddle
    rw [naturalBound, show 2 ^ 54 = 4 * 2 ^ 52 by decide, ← hmiddle]
    omega
  · have hle : 2 ^ 54 * 2 ^ 970 ≤ n := Nat.not_lt.mp fun h =>
      absurd ((log2_lt_add_iff hn 54 970).mpr h) (by omega)
    have hbound : naturalBound ≤ n := (Nat.mul_le_mul_right _ (by decide)).trans hle
    rw [iff_false_right (Nat.not_lt.mpr hbound)]
    omega

theorem le_of_lt_digitCount {n k : Nat} (hk : 0 < k) (h : k < digitCount n) : 10 ^ k ≤ n := by
  unfold digitCount at h
  split at h
  · omega
  · exact Nat.not_lt.mp fun hlt =>
      absurd ((Nat.length_toDigits_le_iff (by decide) hk).mpr hlt) (Nat.not_le.mpr h)

open Decimal in
theorem nearestBits_lt_iff (n : Nat) :
    Decimal.nearestBits ⟨n, 0⟩ < infinityBits ↔ n < naturalBound := by
  rw [Decimal.nearestBits]
  split
  · rename_i h
    have hn : n = 0 := by
      simp only [place, farPlace] at h
      omega
    rw [hn]
    decide +kernel
  split
  · rename_i h
    have hfar : farPlace < digitCount n := by
      simpa [place] using h
    have hle := le_of_lt_digitCount (by decide) hfar
    have hbound : naturalBound ≤ 10 ^ farPlace := by decide +kernel
    rw [iff_false_right (Nat.not_lt.mpr (hbound.trans hle))]
    exact Nat.lt_irrefl _
  · rename_i h _
    have hn : n ≠ 0 := fun hn => h (.inl hn)
    rw [← nearestBits_natural_lt_iff hn]
    simp [tenTo]

/-- The integers that have no double. -/
theorem floatOfInteger_eq_error_iff {n : Int} {fault : Fault} :
    floatOfInteger n = .error fault ↔ naturalBound ≤ n.natAbs ∧ fault = .totalTooLarge := by
  rw [floatOfInteger, ← not_lt, ← nearestBits_lt_iff]
  split
  · simp_all
  · simp_all [eq_comm]

end DiceBot
