import DiceBot.Proofs.Calendar.Reading
import DiceBot.Proofs.Calendar.Stored
import DiceBot.Proofs.Playlist.Latest

/-!
# The time in an announcement

The heading over new videos names the time from which the search started and labels it as universal
time. It shows what the clock of that time shows, whatever the offset of the clock is, so that the
label is right only where the clock of universal time shows the same second. Of the times that are
read from a text these are the ones written in universal time.

## Main definitions

* `Finding.opening`, `Finding.closing`: what stands around the time in an announcement
* `Finding.ShowsUniversalTime`: the announcement shows the time that its label promises

## Main results

* `Finding.announcement_eq`: where an announcement shows a time
* `Finding.showsUniversalTime_iff`: the announcements with the right label
-/

namespace DiceBot

namespace Finding

variable {f : Finding} {shown : List Video}

/-- What stands in front of the time in the announcement of some videos. -/
def opening (f : Finding) (playlist : Json) : Text :=
  (if f.overflow then Text.ofString "More than five videos have"
    else countText f.videos.length) ++ " been added to " ++ playlist.shown ++ " since "

/-- What stands behind the label of the time in the announcement of some videos. -/
def closing (f : Finding) (shown : List Video) : Text :=
  (if f.overflow then Text.ofString "Displaying the last five.\n\n" else "\n") ++
    Text.joined "\n" (lines shown)

/-- An announcement shows the time between the two, with the label of universal time. -/
theorem announcement_eq (hne : f.videos ≠ []) (hordered : f.ordered = .ok shown) (t : Timestamp)
    (playlist : Json) :
    f.announcement t playlist =
      .ok (f.opening playlist ++ t.reading ++ (" UTC.\n" ++ f.closing shown)) := by
  have hempty : ¬ f.videos.isEmpty = true := mt List.isEmpty_iff.mp hne
  rw [announcement, if_neg hempty, hordered, opening, closing]
  cases f.overflow with
  | true => exact congrArg Except.ok (by simp [Text.ofString])
  | false => exact congrArg Except.ok (by simp [Text.ofString])

/-- Announcements of the same videos are told apart by the time that they show. -/
theorem announcement_eq_iff (hne : f.videos ≠ []) (hordered : f.ordered = .ok shown)
    (s t : Timestamp) (playlist : Json) :
    f.announcement s playlist = f.announcement t playlist ↔ s.reading = t.reading := by
  rw [announcement_eq hne hordered, announcement_eq hne hordered, Except.ok.injEq,
    List.append_left_inj, List.append_right_inj]

/-- Whether an announcement is that of the same moment by a clock of universal time. -/
def ShowsUniversalTime (f : Finding) (since : Timestamp) (playlist : Json) : Prop :=
  ∃ u : Timestamp, u.IsUniversal since ∧
    f.announcement since playlist = f.announcement u playlist

/-- **The label of the time in an announcement.** In front of its label an announcement shows what
the clock shows. So it shows universal time exactly if a clock of universal time would show the
same second, and for a time that is read from a text exactly if the offset in that text is zero. Two
times at one moment are announced in the same words exactly if their clocks show the same second. -/
theorem showsUniversalTime_iff (hne : f.videos ≠ []) (hordered : f.ordered = .ok shown)
    (playlist : Json) :
    (∀ t : Timestamp, f.announcement t playlist =
      .ok (f.opening playlist ++ t.reading ++ (" UTC.\n" ++ f.closing shown))) ∧
    (∀ (since : Timestamp) (o : Offset), since.offset = some o →
      (f.ShowsUniversalTime since playlist ↔ since.KeepsSecond o .zero)) ∧
    (∀ (text : Text) (since : Timestamp) (o : Offset), Timestamp.ofText? text = some since →
      since.offset = some o → (f.ShowsUniversalTime since playlist ↔ o = .zero)) ∧
    ∀ (s t : Timestamp) (o o' : Offset), s.offset = some o → t.offset = some o' →
      s.instant = t.instant →
      (f.announcement s playlist = f.announcement t playlist ↔ s.KeepsSecond o o') := by
  have hshows (since : Timestamp) (o : Offset) (ho : since.offset = some o) :
      f.ShowsUniversalTime since playlist ↔ since.KeepsSecond o .zero := by
    rw [← Timestamp.exists_isUniversal_iff ho]
    refine exists_congr fun u => and_congr_right fun _ => ?_
    rw [announcement_eq_iff hne hordered, eq_comm]
  refine ⟨fun t => announcement_eq hne hordered t playlist, hshows, ?_, ?_⟩
  · intro text since o hread ho
    have hlegible := Timestamp.isLegible_of_ofText? hread o ho
    rw [hshows since o ho, Timestamp.keepsSecond_zero_iff hlegible]
  · intro s t o o' hs ht hinstant
    rw [announcement_eq_iff hne hordered, Timestamp.reading_eq_iff_keepsSecond hs ht hinstant]

/-- A single video. -/
def oneVideo : Finding where
  videos := [⟨.text "T", .text "d", .text "ID", "2023-03-01T00:00:00Z"⟩]
  overflow := false

theorem ordered_oneVideo : oneVideo.ordered = .ok oneVideo.videos := by
  have hoffset :
      (Timestamp.ofText? "2023-03-01T00:00:00Z").map Timestamp.hasOffset = some true := by
    decide +kernel
  have hdated : IsDated true oneVideo.videos :=
    List.forall_mem_singleton.mpr (Option.map_eq_some_iff.mp hoffset)
  rw [ordered_of_isDated hdated]
  exact congrArg Except.ok (List.mergeSort_singleton _)

end Finding

namespace Timestamp

/-- An offset of two hours. -/
def twoHours : Offset := ⟨7200000000, by decide⟩

/-- Midnight by a clock that is two hours ahead of universal time. -/
def midnightAhead : Timestamp :=
  { Watcher.firstMoment with offset := some twoHours }

/-- The same moment by a clock of universal time. -/
def eveningBefore : Timestamp where
  date := { Watcher.firstMoment.date with day := 20, one_le_day := by decide, day_le := by decide }
  clock := { Clock.midnight with hour := 22, hour_lt := by decide }
  offset := some .zero

/-- Half a second. -/
def halfSecond : Offset := ⟨500000, by decide⟩

/-- A little after midnight by a clock that is half a second ahead of universal time. -/
def littleAhead : Timestamp where
  date := Watcher.firstMoment.date
  clock := { Clock.midnight with micro := 750000, micro_lt := by decide }
  offset := some halfSecond

end Timestamp

namespace Finding

open Timestamp

/-- An offset within the second is not seen, and one of two hours is. -/
theorem showsUniversalTime_littleAhead :
    oneVideo.videos ≠ [] ∧ oneVideo.ordered = .ok oneVideo.videos ∧
      littleAhead.offset = some halfSecond ∧ oneVideo.ShowsUniversalTime littleAhead (.text "P") ∧
      ofText? "2023-02-21T00:00:00+02:00" = some midnightAhead ∧
      midnightAhead.offset = some twoHours ∧
      ¬ oneVideo.ShowsUniversalTime midnightAhead (.text "P") ∧
      midnightAhead.instant = eveningBefore.instant ∧ eveningBefore.offset = some .zero ∧
      oneVideo.announcement midnightAhead (.text "P") ≠
        oneVideo.announcement eveningBefore (.text "P") := by
  have hne : oneVideo.videos ≠ [] := List.cons_ne_nil _ _
  have hread : ofText? "2023-02-21T00:00:00+02:00" = some midnightAhead := by decide +kernel
  have hinstant : midnightAhead.instant = eveningBefore.instant := by decide +kernel
  obtain ⟨-, hkeeps, hzero, hpair⟩ := showsUniversalTime_iff hne ordered_oneVideo (.text "P")
  refine ⟨hne, ordered_oneVideo, rfl, (hkeeps _ _ rfl).mpr ⟨by decide, by decide⟩, hread, rfl,
    mt (hzero _ _ _ hread rfl).mp (by decide), hinstant, rfl, ?_⟩
  exact mt (hpair _ _ _ _ rfl rfl hinstant).mp fun h => absurd h.1 (by decide)

/-- A time that is stored with an offset of two hours is shown as it stands, with the label of
universal time, though that is two hours behind. -/
theorem not_showsUniversalTime_midnightAhead :
    ofText? "2023-02-21T00:00:00+02:00" = some midnightAhead ∧
      eveningBefore.IsUniversal midnightAhead ∧
      oneVideo.announcement midnightAhead (.text "P") =
        .ok ("1 video has been added to P since 2023/02/21 00:00:00 UTC.\n\n" ++
          Text.ofString "1. T - https://www.youtube.com/watch?v=ID") ∧
      oneVideo.announcement eveningBefore (.text "P") =
        .ok ("1 video has been added to P since 2023/02/20 22:00:00 UTC.\n\n" ++
          Text.ofString "1. T - https://www.youtube.com/watch?v=ID") ∧
      ¬ oneVideo.ShowsUniversalTime midnightAhead (.text "P") := by
  have hne : oneVideo.videos ≠ [] := List.cons_ne_nil _ _
  refine ⟨by decide +kernel, ⟨rfl, by decide +kernel⟩, ?_, ?_, ?_⟩
  · rw [announcement_eq hne ordered_oneVideo]
    decide +kernel
  · rw [announcement_eq hne ordered_oneVideo]
    decide +kernel
  · rintro ⟨u, hu, htext⟩
    rw [announcement_eq_iff hne ordered_oneVideo,
      reading_eq_iff_keepsSecond rfl hu.offset hu.instant.symm] at htext
    exact absurd htext.1 (by decide)

end Finding

end DiceBot
