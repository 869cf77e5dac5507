import DiceBot.Proofs.Decimal.Nearest
import DiceBot.Proofs.Json.Numeral

/-!
# Doubles in JSON read back

The decimal with which a double is written lies among the numbers that round to it, and moving zeros
from its digits into its exponent or back does not change that. So a double is read where it was
written; there is one undefined double only, and it has a word.

## Main definitions

* `Decimal.Same`: two decimals are one number

## Main results

* `Magnitude.readsBack_shortest`: the shortest decimal of a magnitude rounds to it
* `Json.rereadFloat_eq`: a double is read where it was written
-/

namespace DiceBot

/-! ## Decimals of one number -/

theorem compare_mul_right {k : Nat} (hk : 0 < k) (a b : Nat) :
    compare (a * k) (b * k) = compare a b := by
  rcases Nat.lt_trichotomy a b with h | rfl | h
  · rw [Nat.compare_eq_lt.mpr h, Nat.compare_eq_lt.mpr (Nat.mul_lt_mul_of_pos_right h hk)]
  · rw [Nat.compare_eq_eq.mpr rfl, Nat.compare_eq_eq.mpr rfl]
  · rw [Nat.compare_eq_gt.mpr h, Nat.compare_eq_gt.mpr (Nat.mul_lt_mul_of_pos_right h hk)]

namespace Decimal

/-- Two decimals are one number. -/
def Same (d d' : Decimal) : Prop :=
  d.numerator * d'.denominator = d'.numerator * d.denominator

variable {d d' : Decimal}

/-- Zeros may stand in the digits or in the exponent. -/
theorem same_shift (n k : Nat) (e : Int) : Same ⟨n * tenTo k, e⟩ ⟨n, e + k⟩ := by
  have hexponents : k + e.toNat + (-(e + k)).toNat = (e + k).toNat + (-e).toNat := by omega
  have hpowers : tenTo k * tenTo e.toNat * tenTo (-(e + k)).toNat =
      tenTo (e + k).toNat * tenTo (-e).toNat := by
    simp only [tenTo, Nat.pow_eq, ← Nat.pow_add, hexponents]
  simp only [Same, numerator, denominator, Nat.mul_assoc] at hpowers ⊢
  rw [hpowers]

theorem same_of_shift {k : Nat} (h : d' = ⟨d.digits * tenTo k, d.exponent - k⟩) : Same d' d := by
  have hsame := same_shift d.digits k (d.exponent - k)
  rwa [Int.sub_add_cancel, ← h] at hsame

theorem Same.digits_ne_zero (h : Same d' d) (hd : d.digits ≠ 0) : d'.digits ≠ 0 := by
  intro hd'
  have hnumerator : d.numerator * d'.denominator = 0 := by
    rw [← h, numerator, hd', Nat.zero_mul, Nat.zero_mul]
  have hpos : 0 < d.numerator := Nat.mul_pos (Nat.pos_of_ne_zero hd) (tenTo_pos _)
  exact (Nat.mul_pos hpos d'.denominator_pos).ne' hnumerator

end Decimal

namespace Magnitude

variable {x : Magnitude} {d d' : Decimal}

/-- Decimals of one number compare in the same way. -/
theorem compareQuarters_of_same (h : d.Same d') (quarters : Nat) :
    x.compareQuarters d quarters = x.compareQuarters d' quarters := by
  have hswap : d.numerator * (4 * unitsInOne) * d'.denominator =
      d'.numerator * (4 * unitsInOne) * d.denominator := by
    rw [Nat.mul_right_comm, h, Nat.mul_right_comm]
  calc x.compareQuarters d quarters
      = compare (d.numerator * (4 * unitsInOne)) ((quarters <<< x.shift) * d.denominator) := rfl
    _ = compare (d.numerator * (4 * unitsInOne) * d'.denominator)
          ((quarters <<< x.shift) * d.denominator * d'.denominator) :=
      (compare_mul_right d'.denominator_pos _ _).symm
    _ = compare (d'.numerator * (4 * unitsInOne) * d.denominator)
          ((quarters <<< x.shift) * d'.denominator * d.denominator) := by
      rw [hswap, Nat.mul_right_comm (quarters <<< x.shift)]
    _ = compare (d'.numerator * (4 * unitsInOne)) ((quarters <<< x.shift) * d'.denominator) :=
      compare_mul_right d.denominator_pos _ _

theorem readsBack_of_same (h : d.Same d') : x.readsBack d = x.readsBack d' := by
  simp only [readsBack, compareQuarters_of_same h]

/-! ## The shortest decimal -/

theorem readsBack_trimmed (d : Decimal) : x.readsBack d.trimmed = x.readsBack d := by
  fun_induction Decimal.trimmed d with
  | case1 d hd ih =>
    rw [ih]
    refine (readsBack_of_same (Decimal.same_of_shift (k := 1) ?_)).symm
    have hten : d.digits / 10 * tenTo 1 = d.digits := by
      show d.digits / 10 * 10 = d.digits
      omega
    simp [hten]
  | case2 d hd => rfl

/-- The exact decimal of a magnitude is as many units as the magnitude. -/
theorem numerator_exact (x : Magnitude) :
    x.exact.numerator * unitsInOne = x.mantissa * (2 ^ x.shift * x.exact.denominator) := by
  have hnumerator : (-1074 : Int).toNat = 0 := rfl
  have hdenominator : (-(-1074) : Int).toNat = 1074 := rfl
  simp only [exact, Decimal.numerator, Decimal.denominator, hnumerator, hdenominator, units,
    unitsInOne, Nat.shiftLeft_eq, Nat.one_mul, tenTo, Nat.pow_eq, Nat.pow_zero, Nat.mul_one]
  -- the powers are too large to be computed
  generalize 1074 = k
  rw [show (10 : Nat) = 5 * 2 from rfl, Nat.mul_pow]
  ring

/-- A magnitude above zero rounds to itself. -/
theorem readsBack_exact (hx : x.mantissa ≠ 0) : x.readsBack x.exact = true := by
  have hplace : 0 < 2 ^ x.shift * x.exact.denominator :=
    Nat.mul_pos (Nat.two_pow_pos _) x.exact.denominator_pos
  have hlow : x.lowQuarters < 4 * x.mantissa := by
    unfold lowQuarters
    split <;> omega
  rw [readsBack_iff, numerator_exact, ← Nat.mul_assoc 4]
  exact ⟨.inl (Nat.mul_lt_mul_of_pos_right hlow hplace),
    .inl (Nat.mul_lt_mul_of_pos_right (by omega) hplace)⟩

/-- The shortest decimal of a magnitude rounds to it. -/
theorem readsBack_shortest (hx : x.mantissa ≠ 0) : x.readsBack x.shortest = true := by
  rw [shortest_of_mantissa_ne_zero hx, readsBack_trimmed]
  cases hfound : (List.range 17).findSome? fun n : Nat => x.onGrid? (x.scale - (n + 1)) with
  | none => exact readsBack_exact hx
  | some d =>
    obtain ⟨n, -, hn⟩ := List.exists_of_findSome?_eq_some hfound
    exact readsBack_of_onGrid? hn

end Magnitude

/-! ## The parts of a decimal -/

namespace Text

theorem digitsValue_append (front back : Text) :
    digitsValue (front ++ back) =
      back.foldl (fun value c => 10 * value + c.digit?.getD 0) front.digitsValue :=
  List.foldl_append

/-- Zeros behind digits multiply their number. -/
theorem digitsValue_append_zeros (t : Text) (k : Nat) :
    digitsValue (t ++ List.replicate k (CodePoint.ofChar '0')) = t.digitsValue * tenTo k := by
  have hzero : CodePoint.digit? '0' = some 0 := CodePoint.digit?_ofChar (by decide)
  rw [digitsValue_append]
  generalize t.digitsValue = n
  induction k generalizing n with
  | zero => exact (Nat.mul_one n).symm
  | succ k ih =>
    rw [List.replicate_succ, List.foldl_cons, hzero, ih]
    simp only [tenTo, Nat.pow_eq, Nat.pow_succ', Option.getD_some, Nat.add_zero]
    ring

/-- Zeros before digits do not count. -/
theorem digitsValue_zeros_append (k : Nat) (t : Text) :
    digitsValue (List.replicate k (CodePoint.ofChar '0') ++ t) = t.digitsValue := by
  have hzeros := digitsValue_append_zeros [] k
  rw [List.nil_append] at hzeros
  rw [digitsValue_append, hzeros]
  show List.foldl _ (0 * tenTo k) t = _
  rw [Nat.zero_mul]
  rfl

end Text

namespace Decimal

/-- A decimal is read as its digits, perhaps with zeros from its exponent behind them. -/
theorem exists_parts_decimal (d : Decimal) :
    ∃ k : Nat, d.parts.decimal = ⟨d.digits * tenTo k, d.exponent - k⟩ := by
  have hpos := List.length_pos_of_ne_nil (Text.natural_ne_nil d.digits)
  have hvalue := Text.digitsValue_natural d.digits
  have hplain : ∀ p : Json.FloatParts, Text.digitsValue (p.whole ++ p.decimals) = d.digits →
      Json.FloatParts.power p.exponent - p.decimals.length = d.exponent →
      ∃ k : Nat, p.decimal = ⟨d.digits * tenTo k, d.exponent - k⟩ := by
    intro p hdigits hexponent
    refine ⟨0, ?_⟩
    rw [Json.FloatParts.decimal, hdigits, hexponent, tenTo, Nat.pow_eq, Nat.pow_zero, Nat.mul_one,
      Int.natCast_zero, Int.sub_zero]
  unfold parts
  dsimp only
  split
  · split
    · apply hplain
      · have hwhole : Text.ofString "0" = List.replicate 1 (CodePoint.ofChar '0') := rfl
        rw [← List.append_assoc]
        simp only [hwhole, List.replicate_append_replicate, Text.digitsValue_zeros_append, hvalue]
      · simp only [Json.FloatParts.power, List.length_append, List.length_replicate]
        omega
    · split
      · have hwhole : Text.ofString "0" = List.replicate 1 (CodePoint.ofChar '0') := rfl
        refine ⟨d.exponent.toNat + 1, ?_⟩
        simp only [Json.FloatParts.decimal, Json.FloatParts.power, hwhole, List.append_assoc,
          List.replicate_append_replicate, Text.digitsValue_append_zeros, hvalue, Decimal.mk.injEq]
        refine ⟨?_, ?_⟩
        · have hzeros : ((Text.natural d.digits).length + d.exponent -
              (Text.natural d.digits).length : Int).toNat = d.exponent.toNat := by omega
          rw [hzeros]
        · rw [List.length_replicate]
          omega
      · apply hplain
        · rw [List.take_append_drop, hvalue]
        · simp only [Json.FloatParts.power, List.length_drop]
          omega
  · apply hplain
    · rw [List.take_append_drop, hvalue]
    · simp only [Json.FloatParts.power, List.length_drop, Text.digitsValue_padded]
      split
      · rename_i hnegative
        have := of_decide_eq_true hnegative
        omega
      · rename_i hpositive
        have := of_decide_eq_false (Bool.eq_false_iff.mpr hpositive)
        omega

/-- What is read where a decimal was written is the same number. -/
theorem same_parts_decimal (d : Decimal) : d.parts.decimal.Same d :=
  have ⟨_, h⟩ := d.exists_parts_decimal
  same_of_shift h

end Decimal

/-! ## Doubles -/

namespace Magnitude

/-- A magnitude is read where its shortest decimal was written. -/
theorem nearestBits_shortest {x : Magnitude} (hx : x.IsNormal) :
    x.shortest.parts.decimal.nearestBits = x.bits := by
  have hsame := x.shortest.same_parts_decimal
  by_cases hzero : x.mantissa = 0
  · have hshift : x.shift = 0 := hx.full.resolve_right (by rw [hzero]; decide)
    have hshortest : x.shortest = ⟨0, 0⟩ := if_pos hzero
    rw [hshortest, bits, hzero, hshift]
    decide
  · have hreads := readsBack_shortest hzero
    have hdigits := hsame.digits_ne_zero (digits_ne_zero_of_readsBack hzero hreads)
    exact nearestBits_of_readsBack hx hzero hdigits ((readsBack_of_same hsame).trans hreads)

end Magnitude

open Float.Model Float.Model.UnpackedFloat in
/-- There is only one undefined double. -/
theorem float_eq_of_undefined {x : Float} (h : infinityBits < magnitudeBits x) : x = 0.0 / 0.0 := by
  obtain ⟨⟨bits, hvalid⟩⟩ := x
  have hbits : infinityBits < bits.toNat % signBit := h
  have hlt := bits.toNat_lt
  simp only [infinityBits, signBit] at hbits
  have hexponent : @unpackExponent Format.binary64 bits.toBitVec = -1#11 := by
    apply BitVec.eq_of_toNat_eq
    simp only [unpackExponent, BitVec.toNat_cast, BitVec.extractLsb_toNat, UInt64.toNat_toBitVec,
      BitVec.neg_one_eq_allOnes, BitVec.toNat_allOnes, Nat.shiftRight_eq_div_pow]
    omega
  have hmantissa : @unpackMantissa Format.binary64 bits.toBitVec ≠ 0#52 := by
    intro hzero
    have hzero := congrArg BitVec.toNat hzero
    simp only [unpackMantissa, BitVec.toNat_cast, BitVec.extractLsb_toNat, UInt64.toNat_toBitVec,
      BitVec.toNat_zero, Nat.shiftRight_eq_div_pow] at hzero
    omega
  have hword : (0.0 / 0.0 : Float).toBits.toNat = (packedNaN Format.binary64).toNat := by
    decide +kernel
  have hpacked := congrArg BitVec.toNat (hvalid.eq_packedNaN hexponent hmantissa)
  apply float_eq_of_toBits
  rw [hword]
  exact hpacked

namespace Json

/-- **A double is read where it was written.** -/
theorem rereadFloat_eq (x : Float) : rereadFloat x = x := by
  unfold rereadFloat Extent.ofFloat
  dsimp only
  split
  · rename_i m hm
    split at hm
    · rename_i hlt
      cases hm
      rw [Decimal.toFloat, Magnitude.nearestBits_shortest (Magnitude.isNormal_ofBits hlt),
        Magnitude.bits_ofBits]
      exact floatOfBits_self hlt.le
    · split at hm <;> cases hm
  · rename_i hm
    split at hm
    · cases hm
    · split at hm
      · rename_i heq
        rw [← heq]
        exact floatOfBits_self heq.le
      · cases hm
  · rename_i hm
    split at hm
    · cases hm
    · rename_i hlt
      split at hm
      · cases hm
      · rename_i hne
        exact (float_eq_of_undefined (by omega)).symm

end Json

end DiceBot
