import Mathlib.Algebra.Ring.Nat
import DiceBot.Proofs.Calendar.RoundTrip

/-!
# What clocks show

A clock shows the date and the time of day down to the second. Dates are counted day by day, so that
two clocks show the same exactly if they have counted the same seconds. At one moment they have done
so exactly if the difference of their offsets takes neither of them out of its second; in
particular the offset of a clock that shows universal time is none, or less than a second.

## Main definitions

* `Timestamp.seconds`: the seconds that a clock has counted
* `Timestamp.IsUniversal`: a timestamp by a clock of universal time
* `Timestamp.KeepsSecond`: a clock with another offset shows the same second

## Main results

* `Date.ordinal_injective`: no two dates have one number
* `Timestamp.reading_eq_iff`: clocks that show the same
* `Timestamp.reading_eq_iff_keepsSecond`: clocks that show the same at one moment
* `Timestamp.exists_isUniversal_iff`: clocks that show universal time
-/

namespace DiceBot

/-! ## The numbers of dates -/

/-- Of stretches of which each begins behind those before it, a place lies in one only. -/
theorem eq_of_add_eq {start length : Nat → Nat} {m n i j : Nat}
    (hmn : m < n → start m + length m ≤ start n) (hnm : n < m → start n + length n ≤ start m)
    (hi : i < length m) (hj : j < length n) (h : start m + i = start n + j) : m = n ∧ i = j := by
  rcases Nat.lt_trichotomy m n with hlt | rfl | hlt
  · have := hmn hlt
    omega
  · exact ⟨rfl, by omega⟩
  · have := hnm hlt
    omega

theorem daysBeforeYear_succ {year : Nat} (h : 1 ≤ year) :
    daysBeforeYear (year + 1) = daysBeforeYear year + yearLength year := by
  obtain ⟨years, rfl⟩ := Nat.exists_eq_add_of_le' h
  have hle : years / 100 ≤ years / 4 := Nat.div_le_div_left (by decide) (by decide)
  have hcentury : (years + 1) % 100 = 0 → (years + 1) % 4 = 0 := by omega
  have hfourth : (years + 1) % 400 = 0 → (years + 1) % 100 = 0 := by omega
  simp only [daysBeforeYear, yearLength, isLeapYear, Nat.add_sub_cancel, Nat.succ_div,
    Nat.dvd_iff_mod_eq_zero, Bool.and_eq_true, Bool.or_eq_true, decide_eq_true_eq]
  by_cases h4 : (years + 1) % 4 = 0
  · by_cases h100 : (years + 1) % 100 = 0
    · by_cases h400 : (years + 1) % 400 = 0
      · simp only [h4, h100, h400, if_true, ne_eq, not_true, or_true, and_true]
        omega
      · simp only [h4, h100, h400, if_true, if_false, ne_eq, not_true, or_false, and_false]
        omega
    · simp only [h4, h100, mt hfourth h100, if_true, if_false, ne_eq, not_false_eq_true, true_or,
        and_true]
      omega
  · simp only [h4, mt hcentury h4, mt hfourth (mt hcentury h4), if_false, false_and]
    omega

theorem daysBeforeYear_add_le {year later : Nat} (h : 1 ≤ year) (hlt : year < later) :
    daysBeforeYear year + yearLength year ≤ daysBeforeYear later := by
  rw [← daysBeforeYear_succ h]
  induction later, hlt using Nat.le_induction with
  | base => exact Nat.le_refl _
  | succ later hle ih =>
    rw [daysBeforeYear_succ (h.trans (Nat.le_of_succ_le hle))]
    exact ih.trans (Nat.le_add_right _ _)

theorem sum_take_add_le (lengths : List Nat) {i j : Nat} (h : i < j) :
    (lengths.take i).sum + lengths[i]?.getD 0 ≤ (lengths.take j).sum := by
  induction lengths generalizing i j with
  | nil => simp
  | cons n lengths ih =>
    cases j with
    | zero => cases h
    | succ j =>
      cases i with
      | zero => simp
      | succ i =>
        have hrest := ih (Nat.lt_of_succ_lt_succ h)
        simp only [List.take_succ_cons, List.sum_cons, List.getElem?_cons_succ]
        omega

namespace Date

theorem eq_of_fields {d d' : Date} (hyear : d.year = d'.year) (hmonth : d.month = d'.month)
    (hday : d.day = d'.day) : d = d' := by
  have h := d.ofNumbers?_self
  rw [hyear, hmonth, hday, d'.ofNumbers?_self] at h
  exact (Option.some.inj h).symm

/-- The days of a year before a month. -/
def daysBeforeMonth (year month : Nat) : Nat :=
  ((monthLengths year).take (month - 1)).sum

/-- All months together make up the year. -/
theorem daysBeforeMonth_thirteen (year : Nat) : daysBeforeMonth year 13 = yearLength year := by
  unfold daysBeforeMonth monthLengths yearLength
  split
  · rfl
  · rfl

theorem ordinal_eq (d : Date) :
    d.ordinal = daysBeforeYear d.year + (daysBeforeMonth d.year d.month + (d.day - 1)) :=
  Nat.add_assoc _ _ _

theorem one_le_month (d : Date) : 1 ≤ d.month := by
  by_contra h
  have hday := d.one_le_day.trans d.day_le
  rw [daysInMonth, if_pos (by omega)] at hday
  omega

theorem daysBeforeMonth_add_le (year : Nat) {month later : Nat} (h : 1 ≤ month)
    (hlt : month < later) :
    daysBeforeMonth year month + daysInMonth year month ≤ daysBeforeMonth year later := by
  rw [daysInMonth, if_neg (Nat.ne_of_gt h)]
  exact sum_take_add_le _ (by omega)

/-- No date lies beyond its month or its year. -/
theorem day_sub_lt (d : Date) :
    d.day - 1 < daysInMonth d.year d.month ∧
      daysBeforeMonth d.year d.month + (d.day - 1) < yearLength d.year := by
  have hle : _ ≤ daysBeforeMonth d.year 13 :=
    daysBeforeMonth_add_le d.year d.one_le_month (Nat.lt_succ_of_le d.month_le)
  rw [daysBeforeMonth_thirteen] at hle
  have := d.one_le_day
  have := d.day_le
  omega

/-- No two dates have one number. -/
theorem ordinal_injective {d d' : Date} (h : d.ordinal = d'.ordinal) : d = d' := by
  rw [ordinal_eq, ordinal_eq] at h
  obtain ⟨hyear, hday⟩ := eq_of_add_eq (daysBeforeYear_add_le d.one_le_year)
    (daysBeforeYear_add_le d'.one_le_year) d.day_sub_lt.2 d'.day_sub_lt.2 h
  rw [← hyear] at hday
  obtain ⟨hmonth, hday⟩ := eq_of_add_eq (daysBeforeMonth_add_le _ d.one_le_month)
    (daysBeforeMonth_add_le _ d'.one_le_month) d.day_sub_lt.1 (hyear ▸ d'.day_sub_lt.1) hday
  have := d.one_le_day
  have := d'.one_le_day
  exact eq_of_fields hyear hmonth (by omega)

end Date

/-! ## Clocks that show the same -/

/-- A field of fixed width is told from that of another number. -/
theorem Text.padded_append_inj {width m n : Nat} (hw : 0 < width) (hm : m < 10 ^ width)
    (hn : n < 10 ^ width) {rest rest' : Text}
    (h : padded width m ++ rest = padded width n ++ rest') : m = n ∧ rest = rest' := by
  have hlength := (length_padded hw hm).trans (length_padded hw hn).symm
  obtain ⟨hpadded, hrest⟩ := List.append_inj h hlength
  have hvalue := congrArg digitsValue hpadded
  rw [digitsValue_padded, digitsValue_padded] at hvalue
  exact ⟨hvalue, hrest⟩

namespace Timestamp

variable {s t u : Timestamp} {o o' : Offset}

/-- What a clock shows behind the year. -/
def readingBehindYear (t : Timestamp) : Text :=
  CodePoint.ofChar '/' :: (Text.padded 2 t.date.month ++ CodePoint.ofChar '/' ::
    (Text.padded 2 t.date.day ++ CodePoint.ofChar ' ' :: (Text.padded 2 t.clock.hour ++
      CodePoint.ofChar ':' :: (Text.padded 2 t.clock.minute ++ CodePoint.ofChar ':' ::
        (Text.padded 2 t.clock.second ++ [])))))

theorem reading_eq (t : Timestamp) :
    t.reading = Text.natural t.date.year ++ t.readingBehindYear := by
  rw [reading, readingBehindYear, ← Clock.text_eq, List.append_nil]
  simp [Text.ofString]

theorem fields_lt (t : Timestamp) :
    t.date.month < 10 ^ 2 ∧ t.clock.hour < 10 ^ 2 ∧ t.clock.minute < 10 ^ 2 ∧
      t.clock.second < 10 ^ 2 := by
  have := t.date.month_le
  have := t.clock.hour_lt
  have := t.clock.minute_lt
  have := t.clock.second_lt
  omega

theorem length_readingBehindYear (t : Timestamp) : t.readingBehindYear.length = 15 := by
  obtain ⟨hmonth, hhour, hminute, hsecond⟩ := t.fields_lt
  have hlength {n : Nat} (h : n < 10 ^ 2) : (Text.padded 2 n).length = 2 :=
    Text.length_padded Nat.two_pos h
  simp [readingBehindYear, hlength hmonth, hlength t.date.day_lt, hlength hhour, hlength hminute,
    hlength hsecond]

/-- Clocks that show the same agree in all that they show. -/
theorem eq_of_reading_eq (h : s.reading = t.reading) :
    s.date = t.date ∧ s.clock.hour = t.clock.hour ∧ s.clock.minute = t.clock.minute ∧
      s.clock.second = t.clock.second := by
  have hw : 0 < 2 := Nat.two_pos
  obtain ⟨hmonth, hhour, hminute, hsecond⟩ := s.fields_lt
  obtain ⟨hmonth', hhour', hminute', hsecond'⟩ := t.fields_lt
  rw [reading_eq, reading_eq] at h
  obtain ⟨hyear, h⟩ :=
    List.append_inj' h (s.length_readingBehindYear.trans t.length_readingBehindYear.symm)
  have hyear := congrArg Text.digitsValue hyear
  rw [Text.digitsValue_natural, Text.digitsValue_natural] at hyear
  obtain ⟨hmonth, h⟩ := Text.padded_append_inj hw hmonth hmonth' (List.cons.inj h).2
  obtain ⟨hday, h⟩ := Text.padded_append_inj hw s.date.day_lt t.date.day_lt (List.cons.inj h).2
  obtain ⟨hhour, h⟩ := Text.padded_append_inj hw hhour hhour' (List.cons.inj h).2
  obtain ⟨hminute, h⟩ := Text.padded_append_inj hw hminute hminute' (List.cons.inj h).2
  obtain ⟨hsecond, -⟩ := Text.padded_append_inj hw hsecond hsecond' (List.cons.inj h).2
  exact ⟨Date.eq_of_fields hyear hmonth hday, hhour, hminute, hsecond⟩

/-- The seconds that a clock has counted since the first moment of the year 1. -/
def seconds (t : Timestamp) : Nat :=
  t.date.ordinal * 86400 + ((t.clock.hour * 60 + t.clock.minute) * 60 + t.clock.second)

/-- Clocks show the same exactly if they have counted the same seconds. -/
theorem reading_eq_iff : s.reading = t.reading ↔ s.seconds = t.seconds := by
  constructor
  · intro h
    obtain ⟨hdate, hhour, hminute, hsecond⟩ := eq_of_reading_eq h
    rw [seconds, seconds, hdate, hhour, hminute, hsecond]
  · intro h
    have := s.clock.hour_lt
    have := s.clock.minute_lt
    have := s.clock.second_lt
    have := t.clock.hour_lt
    have := t.clock.minute_lt
    have := t.clock.second_lt
    unfold seconds at h
    have hdate : s.date = t.date := Date.ordinal_injective (by omega)
    rw [hdate] at h
    have hhour : s.clock.hour = t.clock.hour := by omega
    have hminute : s.clock.minute = t.clock.minute := by omega
    have hsecond : s.clock.second = t.clock.second := by omega
    rw [reading, reading, Clock.text, Clock.text, hdate, hhour, hminute, hsecond]

/-! ## Clocks at one moment -/

theorem instant_eq (h : t.offset = some o) :
    t.instant = t.seconds * 1000000 + t.clock.micro - o.micros := by
  rw [instant, h, seconds, Clock.micros, dayMicros, Option.map_some, Option.getD_some]
  omega

/-- Whether a clock with another offset shows the same second at the moment of a timestamp. -/
def KeepsSecond (t : Timestamp) (o o' : Offset) : Prop :=
  0 ≤ t.clock.micro - o.micros + o'.micros ∧ t.clock.micro - o.micros + o'.micros < 1000000

/-- Whether two clocks show the same at one moment depends on their offsets. -/
theorem reading_eq_iff_keepsSecond (hs : s.offset = some o) (ht : t.offset = some o')
    (h : s.instant = t.instant) : s.reading = t.reading ↔ s.KeepsSecond o o' := by
  have := s.clock.micro_lt
  have := t.clock.micro_lt
  rw [instant_eq hs, instant_eq ht] at h
  rw [reading_eq_iff, KeepsSecond]
  omega

/-- Whether a timestamp is the moment of another one by a clock of universal time. -/
structure IsUniversal (u t : Timestamp) : Prop where
  offset : u.offset = some .zero
  instant : u.instant = t.instant

/-- Which clocks show universal time. -/
theorem exists_isUniversal_iff (h : t.offset = some o) :
    (∃ u : Timestamp, u.IsUniversal t ∧ u.reading = t.reading) ↔ t.KeepsSecond o .zero := by
  constructor
  · rintro ⟨u, hu, hreading⟩
    exact (reading_eq_iff_keepsSecond h hu.offset hu.instant.symm).mp hreading.symm
  · intro hkeeps
    have hzero : Offset.zero.micros = 0 := rfl
    obtain ⟨hle, hlt⟩ := hkeeps
    let clock : Clock := { t.clock with
      micro := (t.clock.micro - o.micros).toNat
      micro_lt := by omega }
    let u : Timestamp := ⟨t.date, clock, some .zero⟩
    have hinstant : u.instant = t.instant := by
      rw [instant_eq h, instant_eq (o := .zero) rfl]
      change ((t.seconds : Int) * 1000000 + (t.clock.micro - o.micros).toNat - 0) = _
      omega
    exact ⟨u, ⟨rfl, hinstant⟩, reading_eq_iff.mpr rfl⟩

/-- Of clocks whose offset can be read as it is written only those of universal time show it. -/
theorem keepsSecond_zero_iff (ho : o.IsLegible) : t.KeepsSecond o .zero ↔ o = .zero := by
  have hzero : Offset.zero.micros = 0 := rfl
  have := t.clock.micro_lt
  constructor
  · rintro ⟨hle, hlt⟩
    obtain ⟨micros, hmicros⟩ := o
    rw [Offset.zero, Offset.mk.injEq]
    rcases ho with h | h
    · exact h
    · dsimp only at *
      omega
  · rintro rfl
    exact ⟨by omega, by omega⟩

end Timestamp

end DiceBot
