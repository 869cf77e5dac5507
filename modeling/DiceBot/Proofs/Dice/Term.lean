import DiceBot.Dice.Term
import DiceBot.Proofs.Checked
import DiceBot.Proofs.Text.Numeral
import DiceBot.Proofs.Token.Cut

/-!
# Checked dice terms

The numbers of a dice term are read one after another, and the term is refused at the first check
that fails: the count for its length and its size, the sides for their length and for being none,
the number of dice to keep for its length.

## Main definitions

* `Text.DiceParts.asked`: the number of dice that the parts of a term ask for
* `Text.DiceParts.Passes`: all checks succeed
* `Text.DiceParts.IsOversized`: a numeral is too long before any other check fails

## Main results

* `DiceTerm.ofParts_eq_ok`, `DiceTerm.exists_ofParts_eq_ok`: the terms that pass
* `DiceTerm.ofParts_eq_error_iff`: the terms with a numeral that cannot be read
-/

namespace DiceBot

open Text (DiceParts)

namespace Text.DiceParts

/-- The number of dice that the parts of a term ask for: one where none is written. -/
def asked (parts : DiceParts) : Nat :=
  if parts.count = [] then 1 else parts.count.digitsValue

/-- The count of a term as it is read. -/
def readCount (parts : DiceParts) : Except Fault Nat :=
  if parts.count = [] then .ok 1 else parts.count.readNatural

/-- All checks of a term succeed. -/
structure Passes (parts : DiceParts) : Prop where
  count_length : parts.count.length ≤ maxNumeralDigits
  asked_le : parts.asked ≤ maxDice
  sides_length : parts.sides.length ≤ maxNumeralDigits
  sides_ne : parts.sides.digitsValue ≠ 0
  keep_length : ∀ k ∈ parts.keep, k.2.length ≤ maxNumeralDigits

/-- A numeral of a term is too long to be read, and no check before it fails. -/
inductive IsOversized (parts : DiceParts) : Prop where
  | count : maxNumeralDigits < parts.count.length → IsOversized parts
  | sides : parts.count.length ≤ maxNumeralDigits → parts.asked ≤ maxDice →
      maxNumeralDigits < parts.sides.length → IsOversized parts
  | keep {k : Text × Text} : parts.count.length ≤ maxNumeralDigits → parts.asked ≤ maxDice →
      parts.sides.length ≤ maxNumeralDigits → parts.sides.digitsValue ≠ 0 →
      k ∈ parts.keep → maxNumeralDigits < k.2.length → IsOversized parts

end Text.DiceParts

namespace Text.DiceParts

variable {parts : DiceParts}

theorem readCount_eq_ok_iff {n : Nat} :
    parts.readCount = .ok n ↔ parts.count.length ≤ maxNumeralDigits ∧ n = parts.asked := by
  unfold readCount asked
  split
  · rename_i h
    simp [h, eq_comm]
  · exact Text.readNatural_eq_ok_iff

theorem readCount_eq_error_iff {fault : Fault} :
    parts.readCount = .error fault ↔
      maxNumeralDigits < parts.count.length ∧ fault = .numeralTooLong := by
  unfold readCount
  split
  · rename_i h
    simp [h]
  · exact Text.readNatural_eq_error_iff

end Text.DiceParts

namespace DiceTerm

variable {parts : DiceParts} {text : Text} {position : Nat} {fault : Fault}

/-- Nothing but the length of its numeral refuses a selection. -/
theorem mapM_readKeep_eq_error_iff {keep : Option (Text × Text)} :
    (keep.mapM fun k => readKeep k.1 k.2) = .error fault ↔
      (∃ k ∈ keep, maxNumeralDigits < k.2.length) ∧ fault = .numeralTooLong := by
  cases keep with
  | none =>
    constructor
    · intro h
      cases h
    · rintro ⟨⟨k, hk, _⟩, _⟩
      cases hk
  | some k =>
    have hmap : (some <$> readKeep k.1 k.2 : Except Fault _) = .error fault ↔
        readKeep k.1 k.2 = .error fault := by
      cases readKeep k.1 k.2 with
      | error fault' => simp [Functor.map, Except.map]
      | ok selection => simp [Functor.map, Except.map]
    refine hmap.trans (bind_pure_eq_error_iff.trans ?_)
    rw [Text.readNatural_eq_error_iff]
    simp

/-- The checks of a term in their order. -/
theorem ofParts_eq (parts : DiceParts) (text : Text) (position : Nat) :
    ofParts parts text position = parts.readCount >>= fun count =>
      if maxDice < count then .error .tooManyDice
      else parts.sides.readNatural >>= fun sides =>
        if sides = 0 then .error (.malformed (.noSides text))
        else (parts.keep.mapM fun k => readKeep k.1 k.2) >>= fun keep =>
          .ok { count, sides, text, position, keep } := by
  unfold ofParts DiceParts.readCount
  split
  · rfl
  · rfl

/-- What a term that passes is like. -/
theorem ofParts_eq_ok {term : DiceTerm} (h : ofParts parts text position = .ok term) :
    parts.Passes ∧ term.text = text ∧ term.position = position ∧
      term.count = parts.asked ∧ term.sides = parts.sides.digitsValue := by
  rw [ofParts_eq] at h
  obtain ⟨count, hcount, h⟩ := bind_eq_ok_iff.mp h
  split at h
  · cases h
  rename_i hle
  obtain ⟨sides, hsides, h⟩ := bind_eq_ok_iff.mp h
  split at h
  · cases h
  rename_i hne
  obtain ⟨keep, hkeep, h⟩ := bind_eq_ok_iff.mp h
  cases h
  obtain ⟨hlength, rfl⟩ := DiceParts.readCount_eq_ok_iff.mp hcount
  obtain ⟨hlength', rfl⟩ := Text.readNatural_eq_ok_iff.mp hsides
  refine ⟨⟨hlength, not_lt.mp hle, hlength', hne, fun k hk => ?_⟩, rfl, rfl, rfl, rfl⟩
  by_contra hlong
  rw [mapM_readKeep_eq_error_iff.mpr ⟨⟨k, hk, not_le.mp hlong⟩, rfl⟩] at hkeep
  cases hkeep

theorem exists_ofParts_eq_ok (h : parts.Passes) :
    ∃ term, ofParts parts text position = .ok term := by
  cases hkeep : parts.keep.mapM fun k => readKeep k.1 k.2 with
  | error fault =>
    obtain ⟨⟨k, hk, hlong⟩, _⟩ := mapM_readKeep_eq_error_iff.mp hkeep
    exact absurd (h.keep_length k hk) (not_le.mpr hlong)
  | ok keep =>
    refine ⟨{ count := parts.asked, sides := parts.sides.digitsValue, text, position, keep }, ?_⟩
    rw [ofParts_eq, DiceParts.readCount_eq_ok_iff.mpr ⟨h.count_length, rfl⟩,
      Text.readNatural_eq_ok_iff.mpr ⟨h.sides_length, rfl⟩, hkeep]
    exact (if_neg (not_lt.mpr h.asked_le)).trans (if_neg h.sides_ne)

/-- The faults of a term that escape are those of a numeral that is too long. -/
theorem ofParts_eq_error_iff (hf : fault.Escapes) :
    ofParts parts text position = .error fault ↔
      parts.IsOversized ∧ fault = .numeralTooLong := by
  rw [ofParts_eq]
  constructor
  · intro h
    rcases bind_eq_error_iff.mp h with h | ⟨count, hcount, h⟩
    · obtain ⟨hlong, hfault⟩ := DiceParts.readCount_eq_error_iff.mp h
      exact ⟨.count hlong, hfault⟩
    obtain ⟨hlength, rfl⟩ := DiceParts.readCount_eq_ok_iff.mp hcount
    split at h
    · cases h
      exact absurd hf Fault.not_escapes_tooManyDice
    rename_i hle
    rcases bind_eq_error_iff.mp h with h | ⟨sides, hsides, h⟩
    · obtain ⟨hlong, hfault⟩ := Text.readNatural_eq_error_iff.mp h
      exact ⟨.sides hlength (not_lt.mp hle) hlong, hfault⟩
    obtain ⟨hlength', rfl⟩ := Text.readNatural_eq_ok_iff.mp hsides
    split at h
    · cases h
      exact absurd hf (Fault.not_escapes_malformed _)
    rename_i hne
    rcases bind_eq_error_iff.mp h with h | ⟨keep, _, h⟩
    · obtain ⟨⟨k, hk, hlong⟩, hfault⟩ := mapM_readKeep_eq_error_iff.mp h
      exact ⟨.keep hlength (not_lt.mp hle) hlength' hne hk hlong, hfault⟩
    · cases h
  · rintro ⟨h, rfl⟩
    cases h with
    | count hlong =>
      rw [DiceParts.readCount_eq_error_iff.mpr ⟨hlong, rfl⟩]
      rfl
    | sides hlength hle hlong =>
      rw [DiceParts.readCount_eq_ok_iff.mpr ⟨hlength, rfl⟩,
        Text.readNatural_eq_error_iff.mpr ⟨hlong, rfl⟩]
      exact if_neg (not_lt.mpr hle)
    | keep hlength hle hlength' hne hk hlong =>
      rw [DiceParts.readCount_eq_ok_iff.mpr ⟨hlength, rfl⟩,
        Text.readNatural_eq_ok_iff.mpr ⟨hlength', rfl⟩,
        mapM_readKeep_eq_error_iff.mpr ⟨⟨_, hk, hlong⟩, rfl⟩]
      exact (if_neg (not_lt.mpr hle)).trans (if_neg hne)

theorem ofText_eq_ok {term : DiceTerm} (h : ofText text position = .ok term) :
    ∃ parts, ofParts parts text position = .ok term := by
  unfold ofText at h
  split at h
  · split at h
    · exact ⟨_, h⟩
    · cases h
  · cases h

/-- A dice term is read into the parts that it is written with. -/
theorem ofText_text (h : parts.IsProper) (position : Nat) :
    ofText parts.text position = ofParts parts parts.text position := by
  have htake : Text.takeDice? (parts.text ++ []) = some (parts, []) :=
    h.takeDice?_append (by simp)
  rw [List.append_nil] at htake
  rw [ofText, htake]
  rfl

end DiceTerm

end DiceBot
