import DiceBot.Json.Basic
import DiceBot.Text.Numeral

/-!
# Reading JSON

A document is one value between blanks. Beside the standard forms the words `NaN`, `Infinity` and
`-Infinity` are numbers. Strings hold no control characters; an escaped pair of surrogates is one
code point, and a surrogate that stands alone is kept.

## Main definitions

* `Json.Flaw`: why a document is refused
* `Json.readString`: a string behind its opening quote
* `Json.readNumber`: a number
* `Json.read`: a document
-/

namespace DiceBot

namespace Json

/-- Why a document is refused. -/
inductive Flaw where
  /-- It is no JSON document. -/
  | malformed
  /-- An integer has more digits than are read. -/
  | numeralTooLong
deriving DecidableEq

/-- The blanks that may stand between the parts of a document. -/
def isSpace (c : CodePoint) : Bool :=
  c = ' ' || c = '\t' || c = '\n' || c = '\r'

/-- A text without the blanks in front of it. -/
def skipSpace (t : Text) : Text :=
  t.dropWhile isSpace

/-- The value of a hexadecimal digit. -/
def hexDigit? (c : CodePoint) : Option Nat :=
  if 0x30 ≤ c.toNat ∧ c.toNat ≤ 0x39 then some (c.toNat - 0x30)
  else if 0x41 ≤ c.toNat ∧ c.toNat ≤ 0x46 then some (c.toNat - 0x37)
  else if 0x61 ≤ c.toNat ∧ c.toNat ≤ 0x66 then some (c.toNat - 0x57)
  else none

/-- A code unit of four hexadecimal digits, and the rest. -/
def takeUnit? : Text → Option (Nat × Text)
  | a :: b :: c :: d :: rest =>
    match hexDigit? a, hexDigit? b, hexDigit? c, hexDigit? d with
    | some a, some b, some c, some d => some (((a * 16 + b) * 16 + c) * 16 + d, rest)
    | _, _, _, _ => none
  | _ => none

/-- What an escape letter stands for. -/
def escapeLetter? (c : CodePoint) : Option CodePoint :=
  if c = '"' then some '"'
  else if c = '\\' then some '\\'
  else if c = '/' then some '/'
  else if c = 'b' then some '\x08'
  else if c = 'f' then some '\x0c'
  else if c = 'n' then some '\n'
  else if c = 'r' then some '\r'
  else if c = 't' then some '\t'
  else none

/-- The escape `\u` with the second half of a pair, and the rest. -/
def takeLowHalf? : Text → Option (Nat × Text)
  | b :: u :: rest =>
    if b = '\\' ∧ u = 'u' then
      match takeUnit? rest with
      | some (low, rest) => if 0xDC00 ≤ low ∧ low ≤ 0xDFFF then some (low, rest) else none
      | none => none
    else none
  | _ => none

/-- The code point that the digits behind `\u` stand for, and the rest; the escapes of a pair of
surrogates stand for one code point together. -/
def takeEscapedUnit? (t : Text) : Option (CodePoint × Text) := do
  let (unit, rest) ← takeUnit? t
  let alone := (CodePoint.ofNat? unit).map (·, rest)
  if 0xD800 ≤ unit ∧ unit ≤ 0xDBFF then
    match takeLowHalf? rest with
    | some (low, rest) =>
      (CodePoint.ofNat? (0x10000 + (unit - 0xD800) * 0x400 + (low - 0xDC00))).map (·, rest)
    | none => alone
  else alone

/-- What stands for one code point of a string, and the rest. -/
def takeStringPart? : Text → Option (CodePoint × Text)
  | [] => none
  | c :: rest =>
    if c = '\\' then
      match rest with
      | [] => none
      | e :: rest =>
        if e = 'u' then takeEscapedUnit? rest
        else (escapeLetter? e).map (·, rest)
    else if c.toNat < 0x20 then none
    else some (c, rest)

theorem takeUnit?_length {t : Text} {n : Nat} {rest : Text} (h : takeUnit? t = some (n, rest)) :
    rest.length < t.length := by
  unfold takeUnit? at h
  split at h
  · split at h
    · simp only [Option.some.injEq, Prod.mk.injEq] at h
      obtain ⟨_, rfl⟩ := h
      simp only [List.length_cons]
      omega
    · simp at h
  · simp at h

theorem takeLowHalf?_length {t : Text} {n : Nat} {rest : Text}
    (h : takeLowHalf? t = some (n, rest)) : rest.length < t.length := by
  unfold takeLowHalf? at h
  split at h
  · split at h
    · split at h
      · rename_i hu
        split at h
        · simp only [Option.some.injEq, Prod.mk.injEq] at h
          obtain ⟨_, rfl⟩ := h
          have := takeUnit?_length hu
          simp only [List.length_cons]
          omega
        · simp at h
      · simp at h
    · simp at h
  · simp at h

theorem takeEscapedUnit?_length {t : Text} {c : CodePoint} {rest : Text}
    (h : takeEscapedUnit? t = some (c, rest)) : rest.length < t.length := by
  simp only [takeEscapedUnit?, Option.bind_eq_bind, Option.bind_eq_some_iff] at h
  obtain ⟨⟨unit, r⟩, hu, h⟩ := h
  have hl := takeUnit?_length hu
  have alone : ∀ {x : CodePoint} {y : Text},
      (CodePoint.ofNat? unit).map (·, r) = some (x, y) → y.length < t.length := by
    intro x y hxy
    simp only [Option.map_eq_some_iff, Prod.mk.injEq] at hxy
    obtain ⟨_, _, _, rfl⟩ := hxy
    exact hl
  dsimp only at h
  split at h
  · split at h
    · rename_i low r' hlow
      have := takeLowHalf?_length hlow
      simp only [Option.map_eq_some_iff, Prod.mk.injEq] at h
      obtain ⟨_, _, _, rfl⟩ := h
      omega
    · exact alone h
  · exact alone h

/-- A part of a string takes something away. -/
theorem takeStringPart?_length {t : Text} {c : CodePoint} {rest : Text}
    (h : takeStringPart? t = some (c, rest)) : rest.length < t.length := by
  unfold takeStringPart? at h
  split at h
  · simp at h
  · split at h
    · split at h
      · simp at h
      · split at h
        · have := takeEscapedUnit?_length h
          simp only [List.length_cons]
          omega
        · simp only [Option.map_eq_some_iff, Prod.mk.injEq] at h
          obtain ⟨_, _, _, rfl⟩ := h
          simp only [List.length_cons]
          omega
    · split at h
      · simp at h
      · simp only [Option.some.injEq, Prod.mk.injEq] at h
        obtain ⟨_, rfl⟩ := h
        simp

/-- A string up to its closing quote, and the rest behind it. -/
def readString (t : Text) : Except Flaw (Text × Text) :=
  if t.head? = some (CodePoint.ofChar '"') then .ok ([], t.drop 1)
  else
    match h : takeStringPart? t with
    | none => .error .malformed
    | some (c, rest) =>
      have := takeStringPart?_length h
      match readString rest with
      | .error flaw => .error flaw
      | .ok (s, rest) => .ok (c :: s, rest)
termination_by t.length

/-- The digits of ASCII that a text begins with, and the rest. -/
def takeAsciiDigits (t : Text) : Text × Text :=
  (t.takeWhile (·.asciiDigit?.isSome), t.dropWhile (·.asciiDigit?.isSome))

/-- The digits behind a decimal point, and the rest; a point without digits is not taken. -/
def takeDecimals (t : Text) : Text × Text :=
  match t with
  | c :: rest =>
    let (digits, left) := takeAsciiDigits rest
    if c = '.' ∧ digits ≠ [] then (digits, left) else ([], t)
  | [] => ([], t)

/-- The exponent behind its mark, and the rest; a mark without digits is not taken. -/
def takeExponent? (t : Text) : Option (Int × Text) :=
  match t with
  | c :: rest =>
    if c = 'e' ∨ c = 'E' then
      let (negative, rest) := match rest with
        | s :: more => if s = '-' then (true, more) else if s = '+' then (false, more)
          else (false, rest)
        | [] => (false, rest)
      let (digits, left) := takeAsciiDigits rest
      if digits = [] then none
      else
        let n : Int := digits.digitsValue
        some (if negative then -n else n, left)
    else none
  | [] => none

/-- A number without its sign: an integer, unless decimals or an exponent stand behind. -/
def readMagnitude (negative : Bool) (t : Text) : Except Flaw (Json × Text) :=
  let (digits, rest) := takeAsciiDigits t
  let (whole, rest) :=
    if digits.head? = some (CodePoint.ofChar '0') then (digits.take 1, digits.drop 1 ++ rest)
    else (digits, rest)
  if whole = [] then .error .malformed
  else
    let (decimals, behind) := takeDecimals rest
    let exponent := takeExponent? behind
    if decimals = [] ∧ exponent.isNone then
      if whole.length ≤ maxNumeralDigits then
        let n : Int := Text.digitsValue whole
        .ok (.integer (if negative then -n else n), behind)
      else .error .numeralTooLong
    else
      let (power, behind) := exponent.getD (0, behind)
      let d : Decimal := ⟨Text.digitsValue (whole ++ decimals), power - decimals.length⟩
      .ok (.float (d.toFloat negative), behind)

/-- The words that are values. -/
def words : List (Text × Json) :=
  [("null", null), ("true", bool true), ("false", bool false), ("NaN", float (0.0 / 0.0)),
   ("Infinity", float (floatOfBits false infinityBits)),
   ("-Infinity", float (floatOfBits true infinityBits))]

/-- A number or a word. -/
def readPlain (t : Text) : Except Flaw (Json × Text) :=
  match words.findSome? fun (word, value) => (t.dropStart? word).map (value, ·) with
  | some result => .ok result
  | none =>
    match t with
    | c :: rest => if c = '-' then readMagnitude true rest else readMagnitude false t
    | [] => .error .malformed

mutual

/-- A value, and the rest behind it. Each call takes one step off `fuel`. -/
def readValue : (fuel : Nat) → Text → Except Flaw (Json × Text)
  | 0, _ => .error .malformed
  | fuel + 1, t =>
    match t with
    | [] => .error .malformed
    | c :: rest =>
      if c = '"' then do
        let (s, rest) ← readString rest
        return (text s, rest)
      else if c = '[' then
        let rest := skipSpace rest
        if rest.head? = some (CodePoint.ofChar ']') then .ok (array [], rest.drop 1)
        else do
          let (items, rest) ← readItems fuel rest
          return (array items, rest)
      else if c = '{' then
        let rest := skipSpace rest
        if rest.head? = some (CodePoint.ofChar '}') then .ok (object [], rest.drop 1)
        else do
          let (members, rest) ← readMembers fuel [] rest
          return (object members, rest)
      else readPlain t

/-- The items of an array, at least one, up to its closing bracket. -/
def readItems : (fuel : Nat) → Text → Except Flaw (List Json × Text)
  | 0, _ => .error .malformed
  | fuel + 1, t => do
    let (item, rest) ← readValue fuel t
    match skipSpace rest with
    | c :: rest =>
      if c = ']' then return ([item], rest)
      else if c = ',' then do
        let (items, rest) ← readItems fuel (skipSpace rest)
        return (item :: items, rest)
      else throw .malformed
    | [] => throw .malformed

/-- The members of an object, at least one, up to its closing brace, put to those read before. -/
def readMembers : (fuel : Nat) → List (Text × Json) → Text →
    Except Flaw (List (Text × Json) × Text)
  | 0, _, _ => .error .malformed
  | fuel + 1, members, t =>
    match t with
    | q :: rest =>
      if q = '"' then do
        let (name, rest) ← readString rest
        match skipSpace rest with
        | c :: rest =>
          if c = ':' then do
            let (value, rest) ← readValue fuel (skipSpace rest)
            let members := put members name value
            match skipSpace rest with
            | c :: rest =>
              if c = '}' then return (members, rest)
              else if c = ',' then readMembers fuel members (skipSpace rest)
              else throw .malformed
            | [] => throw .malformed
          else throw .malformed
        | [] => throw .malformed
      else throw .malformed
    | [] => throw .malformed

end

/-- A document: one value between blanks. -/
def read (t : Text) : Except Flaw Json := do
  let (value, rest) ← readValue (2 * t.length + 2) (skipSpace t)
  if skipSpace rest = [] then return value else throw .malformed

end Json

end DiceBot
