/-!
# Texts

A text is a sequence of Unicode code points. Chat messages and configuration files may carry
surrogate code points, which stand for no character and which no encoding form accepts, so a text
is a list of code points and not a string.

## Main definitions

* `CodePoint`: a Unicode code point, surrogates included
* `Text`: a list of code points; characters and strings coerce to it
* `CodePoint.utf8`, `Text.encodable`: the encoding form, and which texts have one
* `Text.natural`, `Text.padded`, `Text.integer`: decimal numerals
-/

namespace DiceBot

/-- A Unicode code point, surrogates included. -/
structure CodePoint where
  /-- The scalar of the code point. -/
  toNat : Nat
  /-- Code points end at U+10FFFF. -/
  isLt : toNat < 0x110000
deriving DecidableEq

namespace CodePoint

/-- The code point of a character. -/
def ofChar (c : Char) : CodePoint :=
  ⟨c.toNat, by
    have := c.valid
    have e : c.val.toNat = c.toNat := rfl
    simp only [UInt32.isValidChar, Nat.isValidChar, e] at this
    omega⟩

instance : Coe Char CodePoint := ⟨ofChar⟩

/-- The code point with a given number, if there is one. -/
def ofNat? (n : Nat) : Option CodePoint :=
  if h : n < 0x110000 then some ⟨n, h⟩ else none

instance : LT CodePoint := ⟨fun a b => a.toNat < b.toNat⟩

instance (a b : CodePoint) : Decidable (a < b) :=
  inferInstanceAs (Decidable (a.toNat < b.toNat))

/-- U+D800 to U+DFFF, which stand for no character. -/
def isSurrogate (c : CodePoint) : Bool :=
  0xD800 ≤ c.toNat && c.toNat ≤ 0xDFFF

/-- The bytes of a code point in UTF-8; those of a surrogate are what the scheme would give. -/
def utf8 (c : CodePoint) : List Nat :=
  let n := c.toNat
  if n < 0x80 then [n]
  else if n < 0x800 then [0xC0 + n / 0x40, 0x80 + n % 0x40]
  else if n < 0x10000 then [0xE0 + n / 0x1000, 0x80 + n / 0x40 % 0x40, 0x80 + n % 0x40]
  else [0xF0 + n / 0x40000, 0x80 + n / 0x1000 % 0x40, 0x80 + n / 0x40 % 0x40, 0x80 + n % 0x40]

/-- Membership in a list of closed ranges of code points. -/
def isIn (ranges : List (Nat × Nat)) (c : CodePoint) : Bool :=
  ranges.any fun r => r.1 ≤ c.toNat && c.toNat ≤ r.2

/-- The lower-case form of the Latin capitals of ASCII; every other code point is its own. -/
def asciiLower (c : CodePoint) : CodePoint :=
  if h : 0x41 ≤ c.toNat ∧ c.toNat ≤ 0x5A then ⟨c.toNat + 0x20, by omega⟩ else c

end CodePoint

/-- A sequence of code points. -/
abbrev Text := List CodePoint

namespace Text

/-- The code points of a string. -/
def ofString (s : String) : Text :=
  s.toList.map CodePoint.ofChar

instance : Coe String Text := ⟨ofString⟩

/-- The string of a text; a surrogate becomes the replacement character. -/
def toString (t : Text) : String :=
  String.ofList (t.map fun c => if c.isSurrogate then '\ufffd' else Char.ofNat c.toNat)

/-- A text without surrogates has a UTF-8 form. -/
def encodable (t : Text) : Bool :=
  t.all fun c => !c.isSurrogate

/-- The UTF-8 bytes of a text. -/
def utf8 (t : Text) : List Nat :=
  t.flatMap CodePoint.utf8

/-- The decimal numeral of a natural number, in ASCII digits without leading zeros. -/
def natural (n : Nat) : Text :=
  (Nat.toDigits 10 n).map CodePoint.ofChar

/-- The decimal numeral of a natural number, with leading zeros up to a width. -/
def padded (width n : Nat) : Text :=
  let digits := natural n
  List.replicate (width - digits.length) (CodePoint.ofChar '0') ++ digits

/-- The decimal numeral of an integer, with a hyphen for a sign. -/
def integer : Int → Text
  | .ofNat n => natural n
  | .negSucc n => '-' :: natural (n + 1)

/-- The parts of a text between the occurrences of a separator; always one more than those. -/
def splitOn (separator : CodePoint) : Text → List Text
  | [] => [[]]
  | c :: rest =>
    if c = separator then [] :: splitOn separator rest
    else match splitOn separator rest with
      | [] => [[c]]
      | part :: parts => (c :: part) :: parts

/-- Texts joined by a separator. -/
def joined (separator : Text) (parts : List Text) : Text :=
  separator.intercalate parts

/-- The last text of a row stands behind all others, each with the separator behind it. -/
theorem joined_concat (separator last : Text) (parts : List Text) :
    joined separator (parts ++ [last]) = parts.flatMap (· ++ separator) ++ last := by
  induction parts with
  | nil => simp [joined]
  | cons part rest ih =>
    rw [joined] at ih
    rw [joined, List.cons_append, List.intercalate_cons_of_ne_nil (by simp), ih, List.flatMap_cons,
      List.append_assoc _ _ last]

/-- A text that begins with a given one, without it. -/
def dropStart? (t start : Text) : Option Text :=
  if start.isPrefixOf t then some (t.drop start.length) else none

end Text

end DiceBot
