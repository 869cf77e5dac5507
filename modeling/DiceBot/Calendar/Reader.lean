import DiceBot.Calendar.Timestamp
import DiceBot.Text.Numeral

/-!
# Reading timestamps

A timestamp is read in the forms of ISO 8601 and some that come close. The date is year, month and
day, or year and week with or without a weekday, with hyphens or without. Any one code point may
stand between date and time. The time has one to three fields of two digits, with colons or
without, and a fraction of at most six digits that count; an offset has the form of a time.

The reader is lenient where nothing is ambiguous. One code point of ASCII behind the last field of
a time, and whatever stands behind its sixth decimal, is passed over when an offset follows. A null
code point ends the text behind the decimals and behind an inner Z. An offset of less than a second
counts as none at all.

## Main definitions

* `Text.readDate?`, `Text.readFields?`, `Text.readOffset?`: the parts
* `Timestamp.ofText?`: the timestamp that a text is
-/

namespace DiceBot

namespace Text

/-- The number that exactly `n` digits of ASCII at the front of a text denote, and the rest. -/
def takeDigits? (n : Nat) (t : Text) : Option (Nat × Text) :=
  let digits := t.take n
  if digits.length = n ∧ digits.all (·.asciiDigit?.isSome) then
    some (digitsValue digits, t.drop n)
  else none

/-- A text behind a given code point. -/
def takeMark? (mark : CodePoint) : Text → Option Text
  | [] => none
  | c :: rest => if c = mark then some rest else none

/-- A date: year, month and day, or year, week and weekday. The first weekday may go without
saying. Hyphens stand between all parts or between none. -/
def readDate? (t : Text) : Option Date := do
  let (year, rest) ← takeDigits? 4 t
  let hyphens := rest.head? = some (CodePoint.ofChar '-')
  let rest := if hyphens then rest.drop 1 else rest
  let skip (t : Text) : Option Text := if hyphens then takeMark? '-' t else some t
  match takeMark? 'W' rest with
  | some rest =>
    let (week, rest) ← takeDigits? 2 rest
    if rest = [] then Date.ofWeek? year week 1
    else
      let (weekday, rest) ← takeDigits? 1 (← skip rest)
      if rest = [] then Date.ofWeek? year week weekday else none
  | none =>
    let (month, rest) ← takeDigits? 2 rest
    let (day, rest) ← takeDigits? 2 (← skip rest)
    if rest = [] then Date.ofNumbers? year month day else none

/-- How many code points of a text its date takes up. A week without hyphens is followed by a
weekday unless that would leave half a field for the time; a hyphen behind a week with hyphens
separates the time if two places behind it a digit stands. -/
def dateLength (t : Text) : Nat :=
  let isDigitAt (n : Nat) : Bool := (t[n]?.bind CodePoint.asciiDigit?).isSome
  -- `YYYYWww` alone
  if t.length = 7 then 7
  else if t[4]? = some (CodePoint.ofChar '-') then
    if t[5]? = some (CodePoint.ofChar 'W') then
      -- `YYYY-Www-D` or `YYYY-Www`
      if t[8]? = some (CodePoint.ofChar '-') ∧ !isDigitAt 10 then 10 else 8
    else 10
  else if t[4]? = some (CodePoint.ofChar 'W') then
    -- `YYYYWwwD` or `YYYYWww`
    let digits := ((t.drop 7).takeWhile (·.asciiDigit?.isSome)).length
    if digits = 0 ∨ (digits % 2 = 1 ∧ 3 ≤ digits) then 7 else 8
  else 8

end Text

/-- The fields of a time or of an offset as they are written, and what is left behind them. -/
structure ClockFields where
  /-- The hours. -/
  hours : Nat
  /-- The minutes. -/
  minutes : Nat := 0
  /-- The seconds. -/
  seconds : Nat := 0
  /-- The microseconds. -/
  micros : Nat := 0
  /-- What is left of the text. -/
  left : Text := []
deriving DecidableEq

namespace Text

/-- What may follow a field of a time. -/
inductive FieldEnd where
  /-- The time ends here; the text is what is left. -/
  | done (left : Text)
  /-- Another field, or decimals behind the last one. -/
  | more (rest : Text)
  /-- Decimals. -/
  | decimals (rest : Text)

/-- What follows a field. Colons stand behind all fields but the last one or behind none. -/
def fieldEnd? (colons : Bool) : Text → Option FieldEnd
  | [] => some (.done [])
  | c :: rest =>
    if rest = [] ∧ c.toNat < 0x80 then some (.done [c])
    else if colons ∧ c = ':' then some (.more rest)
    else if c = '.' ∨ c = ',' then some (.decimals rest)
    else if colons then none
    else some (.more (c :: rest))

/-- The microseconds that decimals denote, and what stands behind all digits. Six decimals count;
if fewer code points are there, all of them are decimals. -/
def readDecimals? (t : Text) : Option (Nat × Text) := do
  let count := min t.length 6
  let (n, rest) ← takeDigits? count t
  return (n * tenTo (6 - count), rest.dropWhile (·.asciiDigit?.isSome))

/-- The fields of a time. -/
def readFields? (t : Text) : Option ClockFields := do
  let (hours, rest) ← t.takeDigits? 2
  let colons := rest.head? = some (CodePoint.ofChar ':')
  match ← fieldEnd? colons rest with
  | .done left => return { hours, left }
  | .decimals rest =>
    let (micros, left) ← readDecimals? rest
    return { hours, micros, left }
  | .more rest =>
    let (minutes, rest) ← takeDigits? 2 rest
    match ← fieldEnd? colons rest with
    | .done left => return { hours, minutes, left }
    | .decimals rest =>
      let (micros, left) ← readDecimals? rest
      return { hours, minutes, micros, left }
    | .more rest =>
      let (seconds, rest) ← takeDigits? 2 rest
      match ← fieldEnd? colons rest with
      | .done left => return { hours, minutes, seconds, left }
      | .decimals rest | .more rest =>
        let (micros, left) ← readDecimals? rest
        return { hours, minutes, seconds, micros, left }

/-- Whether nothing is left of a text; a null code point ends it. -/
def isUsedUp (t : Text) : Bool :=
  t = [] || t.head? = some (CodePoint.ofChar '\x00')

/-- A sign or the letter Z, one of which begins an offset. -/
def isOffsetMark (c : CodePoint) : Bool :=
  c = '+' || c = '-' || c = 'Z'

/-- The offset that some fields with a sign denote. -/
def offsetOf? (negative : Bool) (f : ClockFields) : Option Offset :=
  let seconds := (f.hours * 60 + f.minutes) * 60 + f.seconds
  let micros : Int := if seconds = 0 then 0 else (seconds * 1000000 + f.micros : Nat)
  Offset.ofMicros? (if negative then -micros else micros)

/-- An offset behind its mark. -/
def readOffset? (mark : CodePoint) (t : Text) : Option Offset :=
  if mark = 'Z' then if t.isUsedUp then some Offset.zero else none
  else do
    let fields ← readFields? t
    if fields.left.isUsedUp then offsetOf? (mark = '-') fields else none

/-- A time of day with or without an offset. -/
def readTime? (t : Text) : Option (Clock × Option Offset) := do
  let fields ← readFields? (t.takeWhile fun c => !isOffsetMark c)
  let clock ← Clock.ofNumbers? fields.hours fields.minutes fields.seconds fields.micros
  match t.dropWhile fun c => !isOffsetMark c with
  | [] => if fields.left.isUsedUp then some (clock, none) else none
  | mark :: rest => (readOffset? mark rest).map (clock, some ·)

/-- A text in which a surrogate that may separate date and time is the letter T. -/
def withPlainSeparator (t : Text) : Text :=
  match [7, 8, 10].find? fun n => t[n]?.any CodePoint.isSurrogate with
  | some n => t.set n 'T'
  | none => t

/-- The timestamp that a text is, its final Z aside. -/
def readTimestamp? (t : Text) : Option Timestamp :=
  let t := t.withPlainSeparator
  if t.encodable then do
    let date ← readDate? (t.take t.dateLength)
    match t.drop t.dateLength with
    | [] => return { date, clock := Clock.midnight, offset := none }
    | _ :: time =>
      let (clock, offset) ← readTime? time
      return { date, clock, offset }
  else none

end Text

/-- The timestamp that a text is. A final Z stands for no offset from universal time. -/
def Timestamp.ofText? (t : Text) : Option Timestamp :=
  if t.getLast? = some (CodePoint.ofChar 'Z') then Text.readTimestamp? (t.dropLast ++ "+00:00")
  else Text.readTimestamp? t

end DiceBot
