import DiceBot.Calendar.Date

/-!
# Timestamps

A timestamp is a date and a time of day, with or without the offset of its clock from universal
time. Timestamps with an offset are compared as points in time, and those without one as they are
written; one with an offset and one without cannot be compared.

## Main definitions

* `Clock`, `Offset`, `Timestamp`: a time of day, an offset from universal time, a timestamp
* `Timestamp.instant`: the microseconds before a timestamp
* `Timestamp.isBefore?`: the order of timestamps
* `Timestamp.text`: a timestamp as it is stored
* `Timestamp.reading`: a timestamp as its clock shows it
-/

namespace DiceBot

/-- A time of day. -/
structure Clock where
  /-- The hour. -/
  hour : Nat
  /-- The minute. -/
  minute : Nat
  /-- The second. -/
  second : Nat
  /-- The microsecond. -/
  micro : Nat
  hour_lt : hour < 24
  minute_lt : minute < 60
  second_lt : second < 60
  micro_lt : micro < 1000000
deriving DecidableEq

namespace Clock

/-- The time of day with given fields. -/
def ofNumbers? (hour minute second micro : Nat) : Option Clock :=
  if h : (hour < 24 ∧ minute < 60) ∧ second < 60 ∧ micro < 1000000 then
    some ⟨hour, minute, second, micro, h.1.1, h.1.2, h.2.1, h.2.2⟩
  else none

theorem ofNumbers?_self (c : Clock) :
    ofNumbers? c.hour c.minute c.second c.micro = some c := by
  simp [ofNumbers?, c.hour_lt, c.minute_lt, c.second_lt, c.micro_lt]

/-- The beginning of the day. -/
def midnight : Clock :=
  ⟨0, 0, 0, 0, by decide, by decide, by decide, by decide⟩

/-- The microseconds since midnight. -/
def micros (c : Clock) : Nat :=
  ((c.hour * 60 + c.minute) * 60 + c.second) * 1000000 + c.micro

/-- Hours, minutes and seconds between colons. -/
def text (c : Clock) : Text :=
  Text.padded 2 c.hour ++ ":" ++ Text.padded 2 c.minute ++ ":" ++ Text.padded 2 c.second

end Clock

/-- The microseconds of a day. -/
def dayMicros : Nat := 86400000000

/-- How far a clock is ahead of universal time, in microseconds; always by less than a day. -/
structure Offset where
  /-- The microseconds. -/
  micros : Int
  /-- The offset is less than a day. -/
  natAbs_lt : micros.natAbs < dayMicros
deriving DecidableEq

namespace Offset

/-- The offset of a number of microseconds. -/
def ofMicros? (n : Int) : Option Offset :=
  if h : n.natAbs < dayMicros then some ⟨n, h⟩ else none

/-- The offset of universal time from itself. -/
def zero : Offset :=
  ⟨0, by decide⟩

end Offset

/-- The microseconds of a second behind a point, if there are any. -/
def fractionText (micro : Nat) : Text :=
  if micro = 0 then [] else "." ++ Text.padded 6 micro

/-- An offset as a sign, hours and minutes; seconds and microseconds follow if there are any. -/
def Offset.text (o : Offset) : Text :=
  let sign : Text := if o.micros < 0 then "-" else "+"
  let n := o.micros.natAbs
  let seconds := n / 1000000
  let micro := n % 1000000
  let behind : Text :=
    if n % 60000000 = 0 then []
    else ":" ++ Text.padded 2 (seconds % 60) ++ fractionText micro
  sign ++ Text.padded 2 (seconds / 3600) ++ ":" ++ Text.padded 2 (seconds / 60 % 60) ++ behind

/-- A date and a time of day, with or without the offset of its clock. -/
structure Timestamp where
  /-- The date. -/
  date : Date
  /-- The time of day. -/
  clock : Clock
  /-- The offset of the clock from universal time, if it is known. -/
  offset : Option Offset
deriving DecidableEq

namespace Timestamp

/-- The microseconds from the first moment of the year 1 to a timestamp, in universal time if the
offset is known. -/
def instant (t : Timestamp) : Int :=
  (t.date.ordinal * dayMicros + t.clock.micros : Nat) - (t.offset.map Offset.micros).getD 0

/-- Whether a timestamp has an offset. -/
def hasOffset (t : Timestamp) : Bool :=
  t.offset.isSome

/-- Whether a timestamp lies before another, if the two can be compared. -/
def isBefore? (s t : Timestamp) : Option Bool :=
  if s.hasOffset = t.hasOffset then some (s.instant < t.instant) else none

/-- A timestamp as it is stored: date and time of day around the letter T, the fraction of a
second if it is not zero, and the offset if there is one. -/
def text (t : Timestamp) : Text :=
  t.date.text ++ "T" ++ t.clock.text ++ fractionText t.clock.micro
    ++ (t.offset.map Offset.text).getD []

/-- A timestamp as its clock shows it: date between slashes, time of day, no offset. -/
def reading (t : Timestamp) : Text :=
  Text.natural t.date.year ++ "/" ++ Text.padded 2 t.date.month ++ "/"
    ++ Text.padded 2 t.date.day ++ " " ++ t.clock.text

end Timestamp

end DiceBot
