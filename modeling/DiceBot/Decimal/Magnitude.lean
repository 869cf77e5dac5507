/-!
# Magnitudes of doubles

The smallest positive double is 2 ^ -1074, and every finite double is, its sign apart, a natural
number of such units: a mantissa with some zero bits behind it. The bits of a double, read as one
number, count the doubles from zero upwards, so that a double is known by its sign and that count.

## Main definitions

* `Magnitude`: a finite double without its sign
* `Extent`, `Extent.ofFloat`: what a double is, its sign aside
* `floatOfBits`: the double with a sign and a count
* `floatInteger?`: the integer that a double is, if it is one

## Main results

* `Magnitude.bits_ofBits`: a magnitude is known by its count
* `magnitudeBits_floatOfBits`, `floatIsNegative_floatOfBits`: sign and count of a double that was
  made from them
* `floatOfBits_self`: a double that is a number is made from its sign and its count
-/

namespace DiceBot

/-- The number of units in one. -/
def unitsInOne : Nat := 1 <<< 1074

/-- The least mantissa with all its bits, 2 ^ 52. -/
def fullMantissa : Nat := 0x10000000000000

/-- The count of infinity. -/
def infinityBits : Nat := 0x7FF0000000000000

/-- The bit of the sign, 2 ^ 63. -/
def signBit : Nat := 0x8000000000000000

/-- A natural number of units, written as a mantissa with some zero bits behind it. -/
structure Magnitude where
  /-- The mantissa. -/
  mantissa : Nat
  /-- The number of zero bits behind the mantissa. -/
  shift : Nat
deriving DecidableEq

namespace Magnitude

/-- The magnitude with a given count. -/
def ofBits (bits : Nat) : Magnitude :=
  let shift := bits / fullMantissa - 1
  ⟨bits - shift * fullMantissa, shift⟩

/-- The count of a magnitude. -/
def bits (x : Magnitude) : Nat :=
  x.shift * fullMantissa + x.mantissa

/-- The number of units in a magnitude. -/
def units (x : Magnitude) : Nat :=
  x.mantissa <<< x.shift

/-- Whether the double below is half as far away as the double above. -/
def isNarrowBelow (x : Magnitude) : Bool :=
  x.mantissa = fullMantissa && 0 < x.shift

/-- The natural number that a magnitude is. -/
def natural? (x : Magnitude) : Option Nat :=
  if x.units % unitsInOne = 0 then some (x.units / unitsInOne) else none

/-- A magnitude is known by its count. -/
theorem bits_ofBits (bits : Nat) : (ofBits bits).bits = bits := by
  have : (bits / fullMantissa - 1) * fullMantissa ≤ bits :=
    Nat.le_trans (Nat.mul_le_mul_right _ (Nat.sub_le ..)) (Nat.div_mul_le_self ..)
  simp only [Magnitude.bits, ofBits]
  omega

end Magnitude

/-- The count of a double, its sign aside. -/
def magnitudeBits (x : Float) : Nat :=
  x.toBits.toNat % signBit

/-- Whether the sign of a double is set; zero has two signs. -/
def floatIsNegative (x : Float) : Bool :=
  x.toBits.toNat / signBit = 1

/-- What a double is, its sign aside. -/
inductive Extent where
  /-- A number. -/
  | finite (x : Magnitude)
  /-- Beyond all numbers. -/
  | infinite
  /-- The result of an operation that has none. -/
  | undefined
deriving DecidableEq

/-- What a double is, its sign aside. -/
def Extent.ofFloat (x : Float) : Extent :=
  let bits := magnitudeBits x
  if bits < infinityBits then .finite (Magnitude.ofBits bits)
  else if bits = infinityBits then .infinite
  else .undefined

/-- The bits of a double with a sign and a count; a count beyond infinity is infinity. -/
def signedBits (negative : Bool) (bits : Nat) : Nat :=
  (if negative then signBit else 0) + min bits infinityBits

theorem signedBits_lt (negative : Bool) (bits : Nat) : signedBits negative bits < UInt64.size := by
  rw [signedBits, signBit, infinityBits, UInt64.size]
  split <;> omega

theorem toNat_signedBits (negative : Bool) (bits : Nat) :
    (UInt64.ofNat (signedBits negative bits)).toNat = signedBits negative bits :=
  UInt64.toNat_ofNat_of_lt' (signedBits_lt negative bits)

open Float.Model Float.Model.UnpackedFloat in
/-- No count up to that of infinity is that of an undefined double. -/
theorem valid_signedBits (negative : Bool) (bits : Nat) :
    Format.binary64.Valid (UInt64.ofNat (signedBits negative bits)).toBitVec where
  eq_packedNaN he hm := by
    exfalso
    apply hm
    have he := congrArg BitVec.toNat he
    apply BitVec.eq_of_toNat_eq
    simp only [unpackExponent, unpackMantissa, BitVec.toNat_cast, BitVec.extractLsb_toNat,
      UInt64.toNat_toBitVec, BitVec.neg_one_eq_allOnes, BitVec.toNat_allOnes, BitVec.toNat_zero,
      Nat.shiftRight_eq_div_pow, toNat_signedBits] at he ⊢
    rw [signedBits, signBit, infinityBits] at he ⊢
    split at he <;> simp only [*, if_true, if_false, Bool.false_eq_true] <;> omega

/-- The double with a sign and a count; a count beyond infinity is infinity. -/
def floatOfBits (negative : Bool) (bits : Nat) : Float :=
  .ofModel ⟨UInt64.ofNat (signedBits negative bits), valid_signedBits negative bits⟩

theorem toBits_floatOfBits (negative : Bool) (bits : Nat) :
    (floatOfBits negative bits).toBits.toNat = signedBits negative bits :=
  toNat_signedBits negative bits

theorem magnitudeBits_floatOfBits (negative : Bool) (bits : Nat) :
    magnitudeBits (floatOfBits negative bits) = min bits infinityBits := by
  rw [magnitudeBits, toBits_floatOfBits, signedBits, signBit, infinityBits]
  split <;> omega

theorem floatIsNegative_floatOfBits (negative : Bool) (bits : Nat) :
    floatIsNegative (floatOfBits negative bits) = negative := by
  rw [floatIsNegative, toBits_floatOfBits, signedBits, signBit, infinityBits]
  cases negative with
  | false =>
    rw [if_neg Bool.false_ne_true]
    exact decide_eq_false (by omega)
  | true =>
    rw [if_pos rfl]
    exact decide_eq_true (by omega)

/-- Doubles are equal when their bits are. -/
theorem float_eq_of_toBits {x y : Float} (h : x.toBits.toNat = y.toBits.toNat) : x = y := by
  obtain ⟨⟨a, _⟩⟩ := x
  obtain ⟨⟨b, _⟩⟩ := y
  have : a = b := UInt64.toNat_inj.mp h
  subst this
  rfl

/-- A double that is a number or infinite is made from its sign and its count. -/
theorem floatOfBits_self {x : Float} (h : magnitudeBits x ≤ infinityBits) :
    floatOfBits (floatIsNegative x) (magnitudeBits x) = x := by
  apply float_eq_of_toBits
  have hlt := x.toBits.toNat_lt
  rw [toBits_floatOfBits, signedBits, Nat.min_eq_left h, magnitudeBits, floatIsNegative, signBit]
  split
  · rename_i hn
    have := of_decide_eq_true hn
    omega
  · rename_i hn
    have := of_decide_eq_false (Bool.eq_false_iff.mpr hn)
    omega

/-- The integer that a double is, if it is one. -/
def floatInteger? (x : Float) : Option Int :=
  match Extent.ofFloat x with
  | .finite m => m.natural?.map fun n => if floatIsNegative x then -(n : Int) else n
  | _ => none

end DiceBot
