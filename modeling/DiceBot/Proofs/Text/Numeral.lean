import Mathlib.Data.List.TakeWhile
import DiceBot.Proofs.Token.Proper
import DiceBot.Text.Numeral

/-!
# Written numerals

The numeral of a natural number consists of digits, and reading it gives the number again, as a
natural number and as a double.

## Main results

* `Text.isDigits_natural`: a numeral consists of digits
* `Text.digitsValue_natural`: the digits of a numeral denote its number
* `Text.floatOfInteger_natCast`: the double of a numeral is that of its number
-/

namespace DiceBot

theorem CodePoint.digit?_ofChar {c : Char} (h : c.isDigit = true) :
    (ofChar c).digit? = some (c.toNat - 48) := by
  have hc : (ofChar c).toNat = c.toNat := rfl
  rw [Char.isDigit_iff_toNat] at h
  have h' : 48 ≤ c.toNat ∧ c.toNat ≤ 57 := h
  rw [digit?, digitZeros, List.find?_cons_of_pos]
  · rfl
  · simp only [hc, Bool.and_eq_true, decide_eq_true_eq]
    omega

theorem CodePoint.ofChar_injective {c d : Char} (h : ofChar c = ofChar d) : c = d :=
  Char.toNat_inj.mp (congrArg toNat h)

theorem CodePoint.ofChar_ne_of_isDigit {d mark : Char} (hd : d.isDigit = true)
    (hmark : mark.isDigit = false) : ofChar d ≠ ofChar mark := by
  intro h
  cases ofChar_injective h
  rw [hd] at hmark
  cases hmark

theorem CodePoint.asciiDigit?_ofChar {c : Char} (h : c.isDigit = true) :
    (ofChar c).asciiDigit?.isSome = true := by
  have hc : (ofChar c).toNat = c.toNat := rfl
  have h' : 48 ≤ c.toNat ∧ c.toNat ≤ 57 := Char.isDigit_iff_toNat.mp h
  rw [asciiDigit?, if_pos (by omega)]
  rfl

theorem isDigit_of_mem_toDigits {n : Nat} {c : Char} (h : c ∈ Nat.toDigits 10 n) :
    c.isDigit = true :=
  Nat.isDigit_of_mem_toDigits (by omega) (by omega) h

namespace Text

/-- A numeral consists of digits. -/
theorem isDigits_natural (n : Nat) : (natural n).IsDigits := by
  refine ⟨by simp [natural, Nat.toDigits_ne_nil], fun c hc => ?_⟩
  obtain ⟨d, hd, rfl⟩ := List.mem_map.mp hc
  simp [CodePoint.isDigit, CodePoint.digit?_ofChar (isDigit_of_mem_toDigits hd)]

theorem digitsValue_map_ofChar {digits : List Char} (h : ∀ c ∈ digits, c.isDigit = true)
    (start : Nat) :
    (digits.map CodePoint.ofChar).foldl (fun value c => 10 * value + c.digit?.getD 0) start =
      Nat.ofDigitChars 10 digits start := by
  induction digits generalizing start with
  | nil => rfl
  | cons c digits ih =>
    rw [List.map_cons, List.foldl_cons, CodePoint.digit?_ofChar (h c (by simp)),
      ih fun d hd => h d (by simp [hd]), Nat.ofDigitChars_cons]
    rfl

/-- The digits of a numeral denote its number. -/
theorem digitsValue_natural (n : Nat) : digitsValue (natural n) = n := by
  rw [digitsValue, natural, digitsValue_map_ofChar fun c hc => isDigit_of_mem_toDigits hc,
    Nat.ofDigitChars_ten_toDigits]

/-- A number has as many digits as the powers of ten tell. -/
theorem length_natural_le_iff {n k : Nat} (hk : 0 < k) :
    (natural n).length ≤ k ↔ n < tenTo k := by
  rw [natural, List.length_map]
  exact Nat.length_toDigits_le_iff (by decide) hk

theorem readNumber_of_digits {t : Text} (h : ∀ c ∈ t, c.isDigit = true) :
    t.readNumber = Decimal.toFloat false ⟨t.digitsValue, 0⟩ := by
  have htake : t.takeWhile CodePoint.isDigit = t := List.takeWhile_eq_self_iff.mpr h
  have hdrop : t.dropWhile CodePoint.isDigit = [] := List.dropWhile_eq_nil_iff.mpr h
  simp [readNumber, htake, hdrop]

/-- The double of a natural number is that of its numeral, unless it is too large. -/
theorem floatOfInteger_natCast (n : Nat) :
    floatOfInteger n =
      if Decimal.nearestBits ⟨n, 0⟩ < infinityBits then .ok (natural n).readNumber
      else .error .totalTooLarge := by
  have hn : decide ((n : Int) < 0) = false := by simp
  rw [readNumber_of_digits (isDigits_natural n).2, digitsValue_natural]
  simp [floatOfInteger, Decimal.toFloat, hn]

theorem writeInteger_natCast {n : Nat} {t : Text} (h : writeInteger n = .ok t) :
    t = natural n := by
  unfold writeInteger at h
  split at h
  · cases h
    rfl
  · cases h

/-! ## Numerals within the limit -/

theorem foldl_digits_lt (t : Text) (start : Nat) :
    t.foldl (fun value c => 10 * value + c.digit?.getD 0) start <
      (start + 1) * tenTo t.length := by
  induction t generalizing start with
  | nil => exact Nat.lt_of_lt_of_eq start.lt_succ_self (Nat.mul_one _).symm
  | cons c t ih =>
    have hdigit : c.digit?.getD 0 < 10 := by
      cases h : c.digit? with
      | none => decide
      | some v => exact CodePoint.digit?_lt h
    have hten : (start + 1) * tenTo (t.length + 1) = 10 * (start + 1) * tenTo t.length := by
      rw [tenTo, tenTo, Nat.pow_eq, Nat.pow_succ', ← Nat.mul_assoc, Nat.mul_comm (start + 1)]
      rfl
    rw [List.foldl_cons, List.length_cons, hten]
    exact Nat.lt_of_lt_of_le (ih _) (Nat.mul_le_mul_right _ (by omega))

/-- The number that digits denote has no more digits than them. -/
theorem digitsValue_lt_tenTo {t : Text} {k : Nat} (h : t.length ≤ k) :
    t.digitsValue < tenTo k := by
  have hlt := foldl_digits_lt t 0
  rw [Nat.zero_add, Nat.one_mul] at hlt
  exact Nat.lt_of_lt_of_le hlt (Nat.pow_le_pow_right (by decide) h)

theorem readNatural_eq_ok_iff {t : Text} {n : Nat} :
    t.readNatural = .ok n ↔ t.length ≤ maxNumeralDigits ∧ n = t.digitsValue := by
  unfold readNatural
  split <;> simp_all [eq_comm]

theorem readNatural_eq_error_iff {t : Text} {fault : Fault} :
    t.readNatural = .error fault ↔ maxNumeralDigits < t.length ∧ fault = .numeralTooLong := by
  unfold readNatural
  split <;> simp_all [eq_comm]

theorem exists_writeInteger_eq_ok_iff {n : Int} :
    (∃ t, writeInteger n = .ok t) ↔ n.natAbs < tenTo maxNumeralDigits := by
  unfold writeInteger
  split <;> simp_all

theorem writeInteger_eq_error_iff {n : Int} {fault : Fault} :
    writeInteger n = .error fault ↔ tenTo maxNumeralDigits ≤ n.natAbs ∧ fault = .numeralTooLong := by
  unfold writeInteger
  split <;> simp_all [eq_comm]

end Text

end DiceBot
