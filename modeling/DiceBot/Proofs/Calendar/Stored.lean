import DiceBot.Playlist.Video
import DiceBot.Proofs.Calendar.RoundTrip

/-!
# Stored timestamps

The time from which the next search starts is stored as a text, and every start of the bot reads it
again. Whatever the reader accepts, in any of its forms, it reads as a timestamp that is stored and
read without loss: the offset of such a timestamp is none, that of universal time, or at least a
second. Only a clock that is off universal time by less than a second would be read as another one.

## Main results

* `Timestamp.isLegible_of_ofText?`: what is read has a legible offset
* `Timestamp.ofText?_text_eq_self_iff`: which timestamps are read as they are stored
-/

namespace DiceBot

/-! ## What is read is legible -/

theorem Offset.micros_of_ofMicros? {n : Int} {o : Offset} (h : ofMicros? n = some o) :
    o.micros = n := by
  unfold ofMicros? at h
  split at h
  · cases h
    rfl
  · cases h

namespace Text

/-- The fields of an offset denote none, or at least a second. -/
theorem isLegible_of_offsetOf? {negative : Bool} {f : ClockFields} {o : Offset}
    (h : offsetOf? negative f = some o) : o.IsLegible := by
  have hmicros := Offset.micros_of_ofMicros? h
  by_cases hseconds : (f.hours * 60 + f.minutes) * 60 + f.seconds = 0
  · left
    simpa only [hseconds, if_true, Int.neg_zero, ite_self] using hmicros
  · right
    rw [if_neg hseconds] at hmicros
    split at hmicros <;> omega

theorem isLegible_of_readOffset? {mark : CodePoint} {t : Text} {o : Offset}
    (h : readOffset? mark t = some o) : o.IsLegible := by
  unfold readOffset? at h
  split at h
  · split at h
    · cases h
      exact Offset.isLegible_zero
    · cases h
  · obtain ⟨fields, -, h⟩ := Option.bind_eq_some_iff.mp h
    split at h
    · exact isLegible_of_offsetOf? h
    · cases h

theorem isLegible_of_readTime? {t : Text} {clock : Clock} {offset : Option Offset}
    (h : readTime? t = some (clock, offset)) : ∀ o ∈ offset, o.IsLegible := by
  obtain ⟨fields, -, h⟩ := Option.bind_eq_some_iff.mp h
  obtain ⟨c, -, h⟩ := Option.bind_eq_some_iff.mp h
  split at h
  · split at h
    · cases h
      exact nofun
    · cases h
  · obtain ⟨o, ho, h⟩ := Option.map_eq_some_iff.mp h
    cases h
    rintro _ ⟨⟩
    exact isLegible_of_readOffset? ho

theorem isLegible_of_readTimestamp? {s : Text} {t : Timestamp} (h : readTimestamp? s = some t) :
    ∀ o ∈ t.offset, o.IsLegible := by
  unfold readTimestamp? at h
  dsimp only at h
  split at h
  · obtain ⟨date, -, h⟩ := Option.bind_eq_some_iff.mp h
    split at h
    · cases h
      exact nofun
    · obtain ⟨⟨clock, offset⟩, htime, h⟩ := Option.bind_eq_some_iff.mp h
      cases h
      exact isLegible_of_readTime? htime
  · cases h

end Text

namespace Timestamp

theorem isLegible_of_ofText? {s : Text} {t : Timestamp} (h : ofText? s = some t) :
    ∀ o ∈ t.offset, o.IsLegible := by
  unfold ofText? at h
  split at h
  · exact Text.isLegible_of_readTimestamp? h
  · exact Text.isLegible_of_readTimestamp? h

end Timestamp

/-- A search that finds nothing stores what the clock shows. -/
theorem Finding.nextSince_of_videos_eq_nil {f : Finding} (h : f.videos = []) (now : Timestamp) :
    f.nextSince now = .ok now.text := by
  rw [nextSince, latest, h]
  rfl

/-! ## Stored and read again -/

namespace Timestamp

/-- **Stored timestamps are read again.** Every timestamp that is stored is read as one with the
same date and time of day, and as itself exactly if its offset is none, zero or at least a second.
So it is with what the clock shows after a search that found nothing. Whatever is read from any
text is stored and read as itself. -/
theorem ofText?_text_eq_self_iff :
    (∀ t : Timestamp, ofText? t.text = some t.reread ∧
      (ofText? t.text = some t ↔ ∀ o ∈ t.offset, o.IsLegible)) ∧
    (∀ (f : Finding) (now : Timestamp), f.videos = [] →
      ∃ next, f.nextSince now = .ok next ∧
        (ofText? next = some now ↔ ∀ o ∈ now.offset, o.IsLegible)) ∧
    ∀ (s : Text) (t : Timestamp), ofText? s = some t → ofText? t.text = some t := by
  have hiff (t : Timestamp) : ofText? t.text = some t ↔ ∀ o ∈ t.offset, o.IsLegible := by
    rw [ofText?_text_eq, Option.some.injEq, reread_eq_self_iff]
  refine ⟨fun t => ⟨ofText?_text_eq t, hiff t⟩, fun f now hnone => ?_, fun s t h => ?_⟩
  · exact ⟨now.text, Finding.nextSince_of_videos_eq_nil hnone now, hiff now⟩
  · exact (hiff t).mpr (isLegible_of_ofText? h)

/-- The last day of the year 2020, by a clock that is as far behind universal time as can be. -/
def farBehind : Timestamp where
  date := ⟨2020, 12, 31, by decide, by decide, by decide, by decide⟩
  clock := ⟨5, 6, 7, 1, by decide, by decide, by decide, by decide⟩
  offset := some ⟨-86399999999, by decide⟩

/-- A date by its week, a separator of its own and decimals behind a comma are read; stored in the
usual form, they are read again. -/
theorem ofText?_text_farBehind :
    ofText? "2020-W53-4_05:06:07,000001-23:59:59.999999" = some farBehind ∧
      farBehind.text = "2020-12-31T05:06:07.000001-23:59:59.999999" ∧
      ofText? farBehind.text = some farBehind ∧
      ∃ next, (Finding.mk [] false).nextSince farBehind = .ok next ∧
        ofText? next = some farBehind := by
  have hread : ofText? "2020-W53-4_05:06:07,000001-23:59:59.999999" = some farBehind := by
    decide +kernel
  obtain ⟨hstored, hsearch, hreread⟩ := ofText?_text_eq_self_iff
  have hagain := hreread _ _ hread
  obtain ⟨next, hnext, hiff⟩ := hsearch ⟨[], false⟩ farBehind rfl
  refine ⟨hread, by decide +kernel, hagain, next, hnext, hiff.mpr ?_⟩
  exact (hstored farBehind).2.mp hagain

/-- The beginning of the same day, by a clock that is a microsecond ahead of universal time. -/
def microsecondAhead : Timestamp :=
  { farBehind with clock := Clock.midnight, offset := some ⟨1, by decide⟩ }

/-- An offset of a microsecond is stored, and is read as none. -/
theorem ofText?_text_microsecondAhead :
    microsecondAhead.text = "2020-12-31T00:00:00+00:00:00.000001" ∧
      ofText? microsecondAhead.text ≠ some microsecondAhead ∧
      ofText? microsecondAhead.text = some { microsecondAhead with offset := some Offset.zero } :=
  ⟨by decide +kernel, by decide +kernel, by decide +kernel⟩

end Timestamp

end DiceBot
