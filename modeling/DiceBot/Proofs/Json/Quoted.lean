import DiceBot.Json.Printer
import DiceBot.Json.Reader

/-!
# Strings in JSON read back

Between its quotation marks a string holds a part for each code point, either the code point or an
escape. The reader takes the parts one by one up to the closing mark, with which no part begins.

## Main results

* `Json.takeStringPart?_append`: the part of a code point is read as that code point
* `Json.readString_append`: a string is read back
-/

namespace DiceBot

namespace Json

/-- What stands for a code point in a string. -/
def stringPart (c : CodePoint) : Text :=
  (escape? c).getD [c]

theorem string_eq (t : Text) :
    string t = CodePoint.ofChar '"' :: (t.flatMap stringPart ++ [CodePoint.ofChar '"']) :=
  rfl

/-! ## Escapes by number -/

theorem takeUnit?_append {t rest : Text} {n : Nat} (h : takeUnit? t = some (n, rest))
    (more : Text) :
    takeUnit? (t ++ more) = some (n, rest ++ more) := by
  unfold takeUnit? at h
  split at h
  · split at h
    · rename_i ha hb hc hd
      cases h
      simp [takeUnit?, ha, hb, hc, hd]
    · cases h
  · cases h

theorem takeUnit?_hex : ∀ n < 0x20, takeUnit? (Text.hex 4 n) = some (n, []) := by
  decide

theorem ofNat?_toNat (c : CodePoint) : CodePoint.ofNat? c.toNat = some c :=
  dif_pos c.isLt

theorem takeEscapedUnit?_hex {c : CodePoint} (h : c.toNat < 0x20) (rest : Text) :
    takeEscapedUnit? (Text.hex 4 c.toNat ++ rest) = some (c, rest) := by
  have hunit := takeUnit?_append (takeUnit?_hex c.toNat h) rest
  have hhigh : ¬ (0xD800 ≤ c.toNat ∧ c.toNat ≤ 0xDBFF) := by omega
  simp only [takeEscapedUnit?, hunit, Option.bind_eq_bind, Option.bind_some, if_neg hhigh,
    ofNat?_toNat, List.nil_append, Option.map_some]

/-! ## Parts -/

/-- How a code point stands in a string. -/
inductive Stands (c : CodePoint) : Prop
  /-- As a letter behind a backslash. -/
  | letter (e : CodePoint) (part : stringPart c = [CodePoint.ofChar '\\', e])
      (read : escapeLetter? e = some c) (other : e ≠ 'u')
  /-- As its number. -/
  | number (part : stringPart c = "\\u" ++ Text.hex 4 c.toNat) (control : c.toNat < 0x20)
  /-- For itself. -/
  | itself (part : stringPart c = [c]) (quote : c ≠ '"') (backslash : c ≠ '\\')
      (control : ¬ c.toNat < 0x20)

theorem stands (c : CodePoint) : Stands c := by
  by_cases hletter : c = '"' ∨ c = '\\' ∨ c = '\n' ∨ c = '\r' ∨ c = '\t' ∨ c = '\x08' ∨
      c = '\x0c'
  · rcases hletter with rfl | rfl | rfl | rfl | rfl | rfl | rfl
    · exact .letter '"' rfl rfl (by decide)
    · exact .letter '\\' rfl rfl (by decide)
    · exact .letter 'n' rfl rfl (by decide)
    · exact .letter 'r' rfl rfl (by decide)
    · exact .letter 't' rfl rfl (by decide)
    · exact .letter 'b' rfl rfl (by decide)
    · exact .letter 'f' rfl rfl (by decide)
  · simp only [not_or] at hletter
    obtain ⟨hquote, hbackslash, hn, hr, ht, hb, hf⟩ := hletter
    by_cases hcontrol : c.toNat < 0x20
    · refine .number ?_ hcontrol
      simp [stringPart, escape?, hquote, hbackslash, hn, hr, ht, hb, hf, hcontrol]
    · refine .itself ?_ hquote hbackslash hcontrol
      simp [stringPart, escape?, hquote, hbackslash, hn, hr, ht, hb, hf, hcontrol]

/-- The part of a code point is read as that code point. -/
theorem takeStringPart?_append (c : CodePoint) (rest : Text) :
    takeStringPart? (stringPart c ++ rest) = some (c, rest) := by
  cases stands c with
  | letter e part read other =>
    rw [part]
    change takeStringPart? (CodePoint.ofChar '\\' :: e :: rest) = _
    rw [takeStringPart?, if_pos rfl, if_neg other, read]
    rfl
  | number part control =>
    rw [part]
    change takeStringPart? (CodePoint.ofChar '\\' :: CodePoint.ofChar 'u' ::
      (Text.hex 4 c.toNat ++ rest)) = _
    rw [takeStringPart?, if_pos rfl, if_pos rfl]
    exact takeEscapedUnit?_hex control rest
  | itself part quote backslash control =>
    simp [part, takeStringPart?, backslash, control]

/-- No part begins with a quotation mark. -/
theorem head?_stringPart_append (c : CodePoint) (rest : Text) :
    (stringPart c ++ rest).head? ≠ some (CodePoint.ofChar '"') := by
  have hbackslash : CodePoint.ofChar '\\' ≠ CodePoint.ofChar '"' := by decide
  intro h
  cases stands c with
  | letter e part read other =>
    rw [part] at h
    exact hbackslash (Option.some.inj h)
  | number part control =>
    rw [part] at h
    exact hbackslash (Option.some.inj h)
  | itself part quote backslash control =>
    rw [part] at h
    exact quote (Option.some.inj h)

/-! ## Strings -/

/-- A string is read back up to its closing quotation mark. -/
theorem readString_append (t rest : Text) :
    readString (t.flatMap stringPart ++ (CodePoint.ofChar '"' :: rest)) = .ok (t, rest) := by
  induction t with
  | nil =>
    rw [readString]
    exact if_pos rfl
  | cons c t ih =>
    rw [List.flatMap_cons, List.append_assoc, readString, if_neg (head?_stringPart_append c _)]
    split
    · rename_i hnone
      rw [takeStringPart?_append] at hnone
      cases hnone
    · rename_i hsome
      rw [takeStringPart?_append] at hsome
      cases hsome
      simp only [ih]

end Json

end DiceBot
