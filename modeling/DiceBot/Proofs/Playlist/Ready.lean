import Mathlib.Logic.Relation
import DiceBot.Proofs.Calendar.RoundTrip
import DiceBot.Proofs.Playlist.Announced
import DiceBot.Proofs.Playlist.Authority
import DiceBot.Proofs.Playlist.Failure
import DiceBot.Proofs.Settings.CutOff

/-!
# Times that can be used again

The time of the next search comes from a video, from the clock, or from a constant, and it goes
through a file. If it was a timestamp with an offset at first, it is one for all time: a video is
found only if its time was compared with such a time, the clock shows universal time, and a file
that can be read holds what was last in use. So no search ever has to begin with the time of the
first one instead.

## Main definitions

* `Text.TellsMoment`: a text is a timestamp with an offset
* `Keeper.IsReady`: the time of the next search is such a text, in use and in the file
* `Duty.Becomes`: an incident, a search, or a restart from the file

## Main results

* `Watcher.Advances.isReady`: a search from such a time hands on such a time
* `Duty.IsReady.becomes`: what can be used again stays so
* `Duty.since_of_becomes`: the time of the first search is never needed instead
-/

namespace DiceBot

/-- A text is a timestamp with an offset. -/
def Text.TellsMoment (stored : Text) : Prop :=
  ∃ t, Timestamp.ofText? stored = some t ∧ t.hasOffset = true

/-- The time of the next search is a timestamp with an offset. -/
def Settings.IsReady (s : Settings) : Prop :=
  ∃ stored, s.playlistTimestamp = .text stored ∧ stored.TellsMoment

theorem Settings.tellsMoment_firstTimestamp : firstTimestamp.TellsMoment :=
  ⟨Watcher.firstMoment, by decide +kernel, rfl⟩

/-! ## In use and in the file -/

namespace Keeper

/-- The time of the next search is a timestamp with an offset, in use and in the file, if that can
be read. -/
structure IsReady (k : Keeper) : Prop where
  settings : k.settings.IsReady
  file : ∀ s, readFile k.file = .ok s → s.IsReady

variable {k k' : Keeper} {s : Settings}

theorem isReady_of_ofFile {file : Option Text} {channels : Text}
    (h : ofFile file channels = .ok k) (hready : k.settings.IsReady) : k.IsReady := by
  refine ⟨hready, fun s hs => ?_⟩
  rw [readFile_of_ofFile h] at hs
  cases hs
  exact hready

/-- A restart from the file finds a time that can be used. -/
theorem IsReady.restart {channels : Text} (hk : k.IsReady)
    (h : ofFile (some k.file) channels = .ok k') : k'.IsReady :=
  isReady_of_ofFile h (hk.file _ (of_ofFile_some h).1)

/-- What is saved can be used again. A file that was not written to its end is none that can be
read. -/
theorem isReady_replace (k : Keeper) (h : s.IsReady) : (k.replace s).1.IsReady := by
  refine ⟨h, fun s' hs' => ?_⟩
  have hfile : (k.replace s).1.file = (written s).1 := rfl
  rw [hfile] at hs'
  cases hwritten : written s with
  | mk text result =>
    rw [hwritten] at hs'
    cases result with
    | none =>
      rw [readFile_written hwritten] at hs'
      cases hs'
      obtain ⟨stored, hstored, hmoment⟩ := h
      exact ⟨stored, Settings.reloaded_playlistTimestamp hstored, hmoment⟩
    | some flaw =>
      obtain ⟨front, hstops, rfl⟩ := Settings.stopsBehind_of_written hwritten
      cases hstops.readFile.symm.trans hs'

theorem isReady_setTimestamp (k : Keeper) {stored : Text} (h : stored.TellsMoment) :
    (k.setTimestamp (.text stored)).1.IsReady :=
  k.isReady_replace ⟨stored, rfl, h⟩

theorem IsReady.setChannel (hk : k.IsReady) (value : Json) : (k.setChannel value).1.IsReady := by
  obtain ⟨stored, hstored, hmoment⟩ := hk.settings
  exact k.isReady_replace ⟨stored, hstored, hmoment⟩

end Keeper

/-! ## What hands on the time -/

/-- What was found in a response was compared with the time of the search, so that the next search
has a time with an offset if this one had. -/
theorem Finding.tellsMoment_nextSince {since now : Timestamp} {body : Json} {f : Finding}
    {next : Text} (hf : ofResponse since body = .ok f) (hsince : since.hasOffset = true)
    (hnow : now.offset = some Offset.zero) (h : f.nextSince now = .ok next) :
    next.TellsMoment := by
  rcases nextSince_eq_ok h with ⟨-, rfl⟩ | ⟨v, hv, rfl⟩
  · refine ⟨now, Timestamp.ofText?_text fun offset hoffset => ?_, ?_⟩
    · cases hnow.symm.trans hoffset
      exact Offset.isLegible_zero
    · rw [Timestamp.hasOffset, hnow]
      rfl
  · obtain ⟨t, ht, hoffset⟩ := isDated_of_ofResponse hf v hv
    exact ⟨t, ht, hoffset.trans hsince⟩

namespace Watcher

variable {w w' : Watcher} {o : Occasion} {since now : Timestamp}

theorem exists_start?_of_isReady (h : w.keeper.settings.IsReady) :
    ∃ t, w.start? = some t ∧ t.hasOffset = true := by
  obtain ⟨stored, hstored, t, ht, hoffset⟩ := h
  refine ⟨t, ?_, hoffset⟩
  rw [start?_of_text hstored, since_of_ofText? ht]

/-- What a search makes of the watch: nothing, or the time of the next search is set. -/
inductive Advances (w : Watcher) (since now : Timestamp) : Watcher → Prop where
  | stays : Advances w since now w
  | moves {body : Json} {f : Finding} {next : Text} : Finding.ofResponse since body = .ok f →
      f.nextSince now = .ok next →
      Advances w since now { w with keeper := (w.keeper.setTimestamp (.text next)).1 }

theorem advances_announce (o : Occasion) (h : w.start? = some since) :
    w.Advances since o.now (w.announce o).watcher := by
  rcases w.fails_or_posts o with ⟨failure, hfails⟩ | hposts
  · rw [hfails.leavesAlone.1.watcher]
    exact .stays
  · obtain ⟨since', body, f, text, next, hstart, -, hf, -, -, hnext, -, hwatcher⟩ := hposts
    cases h.symm.trans hstart
    rw [hwatcher]
    exact .moves hf hnext

theorem advances_complete (w : Watcher) (search : OpenSearch) (o : Occasion) :
    w.Advances search.since o.now (w.complete search o).watcher := by
  unfold complete
  simp only [tolerated_watcher]
  cases o.fetch with
  | unreachable => exact .stays
  | failed reason => exact .stays
  | response body =>
    dsimp only
    cases hprepare : w.prepare search.since o.now body with
    | error flaw => exact .stays
    | ok prepared =>
      obtain ⟨f, text, next⟩ := prepared
      obtain ⟨f', hf, hprepare⟩ := bind_eq_ok_iff.mp hprepare
      obtain ⟨text', -, hprepare⟩ := bind_eq_ok_iff.mp hprepare
      obtain ⟨next', hnext, hprepare⟩ := bind_eq_ok_iff.mp hprepare
      cases hprepare
      cases o.refusal with
      | some e => exact .stays
      | none =>
        dsimp only
        rw [w.watcher_conclude]
        exact .moves hf hnext

/-- A search from a time with an offset hands on such a time. -/
theorem Advances.isReady (h : w.Advances since now w') (hw : w.keeper.IsReady)
    (hsince : since.hasOffset = true) (hnow : now.offset = some Offset.zero) :
    w'.keeper.IsReady := by
  cases h with
  | stays => exact hw
  | moves hf hnext =>
    exact w.keeper.isReady_setTimestamp (Finding.tellsMoment_nextSince hf hsince hnow hnext)

section Commands

variable (author channel : Int) (action : Text) (refusal : Option ServiceError)

theorem isReady_begin (hw : w.keeper.IsReady) :
    (w.begin channel refusal).watcher.keeper.IsReady := by
  have hsaved := hw.setChannel (.integer channel)
  unfold begin
  split
  · exact hw
  · split
    · rename_i hkeeper
      rwa [hkeeper] at hsaved
    · rename_i hkeeper
      rwa [hkeeper] at hsaved

theorem isReady_reset (w : Watcher) : (w.reset refusal).watcher.keeper.IsReady := by
  have hsaved := w.keeper.isReady_setTimestamp Settings.tellsMoment_firstTimestamp
  unfold reset
  split
  · rename_i hkeeper
    rwa [hkeeper] at hsaved
  · rename_i hkeeper
    rwa [hkeeper] at hsaved

/-- A command leaves a time that can be used again, whoever gives it. -/
theorem isReady_manage (hw : w.keeper.IsReady) :
    (w.manage author channel action refusal).watcher.keeper.IsReady := by
  unfold manage
  split
  · exact hw
  · exact hw
  · dsimp only
    split
    · exact isReady_begin channel refusal hw
    split
    · exact isReady_reset refusal w
    · exact hw

end Commands

theorem keeper_resume (w : Watcher) : w.resume.watcher.keeper = w.keeper := by
  rcases w.resume_cases with hsame | ⟨-, hrunning⟩
  · rw [hsame]
  · rw [hrunning]

/-- A search that waits has begun with the time in use. -/
theorem start?_of_setOut {visible : List Int} {search : OpenSearch}
    (h : (w.setOut visible).2 = some search) : w.start? = some search.since := by
  unfold setOut at h
  dsimp only at h
  split at h
  · cases h
  · cases h
  split at h
  · rename_i stored hstored
    cases h
    exact start?_of_text hstored
  · cases h

end Watcher

/-! ## Runs -/

namespace Duty

/-- What may become of a watch: an incident, a search at one go, or a restart of the bot from the
file, with whatever the environment allows then. A search reads a clock of universal time. -/
inductive Becomes : Duty → Duty → Prop where
  | incident {s s' : Duty} {e : Incident} {report : WatchReport} : Step s e report s' →
      (∀ o, e = .complete o → o.now.offset = some Offset.zero) → Becomes s s'
  | search {s : Duty} (o : Occasion) : o.now.offset = some Offset.zero →
      Becomes s { s with watcher := (s.watcher.announce o).watcher }
  | restart {s : Duty} {watcher : Watcher} (channels : Text) :
      Keeper.ofFile (some s.watcher.keeper.file) channels = .ok watcher.keeper →
      Becomes s ⟨watcher, none⟩

/-- The next search and the one under way have times with an offset. -/
structure IsReady (s : Duty) : Prop where
  keeper : s.watcher.keeper.IsReady
  search : ∀ search, s.search = some search → search.since.hasOffset = true

variable {s s' : Duty} {e : Incident} {report : WatchReport}

theorem IsReady.step (hs : s.IsReady) (h : Step s e report s')
    (hclock : ∀ o, e = .complete o → o.now.offset = some Offset.zero) : s'.IsReady := by
  cases h with
  | startUp => exact ⟨s.watcher.keeper_resume.symm ▸ hs.keeper, hs.search⟩
  | command author channel action refusal =>
    exact ⟨Watcher.isReady_manage author channel action refusal hs.keeper, hs.search⟩
  | tick visible =>
    refine ⟨(s.watcher.watcher_setOut visible).symm ▸ hs.keeper, fun search hsearch => ?_⟩
    obtain ⟨t, ht, hoffset⟩ := Watcher.exists_start?_of_isReady hs.keeper.settings
    cases ht.symm.trans (Watcher.start?_of_setOut hsearch)
    exact hoffset
  | @complete search o hsearch =>
    have hadvances := s.watcher.advances_complete search o
    exact ⟨hadvances.isReady hs.keeper (hs.search search hsearch) (hclock o rfl), nofun⟩
  | breakOff => exact ⟨hs.keeper, nofun⟩
  | stop => exact ⟨hs.keeper, nofun⟩

theorem IsReady.becomes (hs : s.IsReady) (h : Becomes s s') : s'.IsReady := by
  cases h with
  | incident hstep hclock => exact hs.step hstep hclock
  | search o hclock =>
    obtain ⟨t, ht, hoffset⟩ := Watcher.exists_start?_of_isReady hs.keeper.settings
    exact ⟨(Watcher.advances_announce o ht).isReady hs.keeper hoffset hclock, hs.search⟩
  | restart channels hload => exact ⟨hs.keeper.restart hload, nofun⟩

/-- **The time of the next search can always be used.** Let the settings be loaded with a time that
is a timestamp with an offset, and anything become of the watch after that. The time in use is then
again a timestamp with an offset, and the next search begins with it: never does it have to begin
with the time of the first search because a text is none. -/
theorem since_of_becomes {file : Option Text} {channels : Text}
    (hload : Keeper.ofFile file channels = .ok s.watcher.keeper) (hresting : s.search = none)
    (hready : s.watcher.keeper.settings.IsReady) (hrun : Relation.ReflTransGen Becomes s s') :
    ∃ stored t, s'.watcher.keeper.settings.playlistTimestamp = .text stored ∧
      Timestamp.ofText? stored = some t ∧ t.hasOffset = true ∧
      Watcher.since stored = (t, []) := by
  have hs : s.IsReady :=
    ⟨Keeper.isReady_of_ofFile hload hready, fun search h => by cases hresting.symm.trans h⟩
  have hs' : s'.IsReady := by
    induction hrun with
    | refl => exact hs
    | tail _ hbecomes ih => exact ih.becomes hbecomes
  obtain ⟨stored, hstored, t, ht, hoffset⟩ := hs'.keeper.settings
  exact ⟨stored, t, hstored, ht, hoffset, Watcher.since_of_ofText? ht⟩

/-- A watch with a new file at the beginning of the year. -/
def newYear : Duty :=
  ⟨Watch.newYearStart.watcher, none⟩

/-- After a search that found a video, and a restart, the next search begins with its time. -/
theorem since_newYear :
    ∃ s', Relation.ReflTransGen Becomes newYear s' ∧
      Keeper.ofFile none [] = .ok newYear.watcher.keeper ∧ newYear.search = none ∧
      newYear.watcher.keeper.settings.IsReady ∧
      s'.watcher.keeper.settings.playlistTimestamp = .text "2024-01-01T00:00:05Z" ∧
      ∃ t, Watcher.since "2024-01-01T00:00:05Z" = (t, []) := by
  have hfile : Keeper.ofFile none [] = .ok newYear.watcher.keeper := rfl
  have hready : newYear.watcher.keeper.settings.IsReady :=
    ⟨Settings.firstTimestamp, rfl, Settings.tellsMoment_firstTimestamp⟩
  have hsearch : Becomes newYear _ := .search (Watch.newYearOccasion 10) rfl
  have hannounced :
      (newYear.watcher.announce (Watch.newYearOccasion 10)).announced = true := by
    decide +kernel
  obtain ⟨-, value, hvalue⟩ := Watcher.exists_setTimestamp_of_announced hannounced
  obtain ⟨-, hread⟩ := Keeper.setTimestamp_eq_none hvalue
  have hrestart : Becomes _ ⟨(Watch.newYearReloaded 10).watcher, none⟩ :=
    .restart (s := ⟨(newYear.watcher.announce (Watch.newYearOccasion 10)).watcher, none⟩) []
      (bind_eq_ok_iff.mpr ⟨_, hread, rfl⟩)
  have hrun := (Relation.ReflTransGen.single hsearch).tail hrestart
  obtain ⟨stored, t, hstored, -, -, hsince⟩ := since_of_becomes hfile rfl hready hrun
  have htime : (Watch.newYearReloaded 10).watcher.keeper.settings.playlistTimestamp =
      .text "2024-01-01T00:00:05Z" := rfl
  cases htime.symm.trans hstored
  exact ⟨_, hrun, hfile, rfl, hready, htime, t, hsince⟩

end Duty

end DiceBot
