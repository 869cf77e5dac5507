import Mathlib.Logic.Relation
import DiceBot.Proofs.Playlist.Added
import DiceBot.Proofs.Settings.File

/-!
# Announced videos

One search after another, some of them successful, with reloads of the settings between them. The
time from which the next search starts is never earlier than a video that was announced: a search
that finds videos hands on the time of the last one, a search that finds none hands on what the
clock shows, and a search that fails leaves the time as it is, in use and in the file. So no video
is announced twice.

## Main definitions

* `Watcher.posted`: the videos that a search announces
* `Watch`: a watch with the videos announced so far
* `Watch.Step`: a search, or a reload of the settings

## Main results

* `Watch.IsBehind.step`: no announced video lies ahead of the next search
* `Watch.nodup_announced`: no video is announced twice
-/

namespace DiceBot

/-- What tells an item of a playlist from the others: its video and when it was published. -/
def Video.entry (v : Video) : Json × Text :=
  (v.id, v.published)

/-- A response lists each item of the playlist at most once, and no item that was published later
than the clock shows. A time of publication without an offset counts as universal time. -/
structure Json.IsTimely (body : Json) (now : Timestamp) : Prop where
  nodup : (body.videos.map Video.entry).Nodup
  le_now : ∀ v ∈ body.videos, ∀ t, v.moment? = some t → t.instant ≤ now.instant

namespace Watcher

variable {w : Watcher} {o : Occasion}

/-- The videos that a search announces; a search that fails announces none. -/
def posted (w : Watcher) (o : Occasion) : List Video :=
  if (w.announce o).announced then
    match w.start?, o.fetch with
    | some since, .response body =>
      match Finding.ofResponse since body with
      | .ok f => f.videos
      | .error _ => []
    | _, _ => []
  else []

theorem posted_eq {since : Timestamp} {body : Json} {f : Finding}
    (h : (w.announce o).announced = true) (hstart : w.start? = some since)
    (hfetch : o.fetch = .response body) (hf : Finding.ofResponse since body = .ok f) :
    w.posted o = f.videos := by
  simp only [posted, h, if_true, hstart, hfetch, hf]

/-- The videos that a search announces are those that its announcement lists. -/
theorem exists_posted_of_announced (h : (w.announce o).announced = true) :
    ∃ (since : Timestamp) (f : Finding) (text : Text), w.start? = some since ∧
      w.posted o = f.videos ∧
      f.announcement since w.keeper.settings.playlistName = .ok text ∧
      (w.announce o).reaction.messages = [.post text] := by
  obtain ⟨since, body, f, text, next, hstart, hfetch, hf, htext, -, hmessages, -⟩ :=
    exists_of_announced h
  exact ⟨since, f, text, hstart, posted_eq h hstart hfetch hf, htext, hmessages⟩

/-- A search that gets as far as its announcement keeps the time of the next search; any other
changes nothing. -/
theorem announce_cases (w : Watcher) (o : Occasion) :
    ((w.announce o).watcher = w ∧ (w.announce o).announced = false) ∨
      ∃ journal f text next, w.announce o = w.conclude journal f text next := by
  unfold announce
  split
  · dsimp only
    split
    · exact .inl ⟨rfl, rfl⟩
    · exact .inl ⟨rfl, rfl⟩
    split
    · exact .inl ⟨rfl, rfl⟩
    · rename_i f text next hprepare
      split
      · exact .inl ⟨rfl, rfl⟩
      · exact .inr ⟨_, f, text, next, rfl⟩
  · exact .inl ⟨rfl, rfl⟩

/-- A search that is announced does not fail, and its time was saved. -/
theorem exists_setTimestamp_of_announced (h : (w.announce o).announced = true) :
    (w.announce o).reaction.failure = none ∧
      ∃ value, w.keeper.setTimestamp (.text value) = ((w.announce o).watcher.keeper, none) := by
  rcases w.announce_cases o with ⟨-, hnone⟩ | ⟨journal, f, text, next, heq⟩
  · rw [hnone] at h
    cases h
  · rw [heq] at h ⊢
    unfold conclude at h ⊢
    split at h
    · cases h
    · rename_i keeper hkeeper
      exact ⟨rfl, next, hkeeper⟩

/-- A search that is not announced changes nothing, unless the time could not be saved. -/
theorem watcher_eq_of_not_announced (h : ¬ (w.announce o).announced = true)
    (hsaved : ∀ flaw, (w.announce o).reaction.failure ≠ some (.settings flaw)) :
    (w.announce o).watcher = w := by
  rcases w.announce_cases o with ⟨hwatcher, -⟩ | ⟨journal, f, text, next, heq⟩
  · exact hwatcher
  · rw [heq] at h hsaved
    unfold conclude at h hsaved
    split at h
    · rename_i keeper flaw hkeeper
      rw [hkeeper] at hsaved
      exact absurd rfl (hsaved flaw)
    · exact absurd rfl h

end Watcher

/-! ## The time in the file -/

namespace Keeper

variable {k k' : Keeper}

/-- Whether the file, if it can be read, holds the time from which the next search starts. -/
def InSync (k : Keeper) : Prop :=
  ∀ s, readFile k.file = .ok s → s.playlistTimestamp = k.settings.playlistTimestamp

/-- Settings that were just loaded are in the file. -/
theorem inSync_of_ofFile {file : Option Text} {channels : Text}
    (h : ofFile file channels = .ok k) : k.InSync := by
  intro s hs
  rw [readFile_of_ofFile h] at hs
  cases hs
  rfl

/-- Settings that are reloaded start the next search from the same time. -/
theorem InSync.reload {channels : Text} (hk : k.InSync)
    (h : ofFile (some k.file) channels = .ok k') :
    k'.settings.playlistTimestamp = k.settings.playlistTimestamp :=
  hk _ (of_ofFile_some h).1

theorem inSync_of_setTimestamp {value : Text}
    (h : k.setTimestamp (.text value) = (k', none)) : k'.InSync := by
  obtain ⟨hsettings, hread⟩ := setTimestamp_eq_none h
  intro s hs
  cases hread.symm.trans hs
  have htext : k'.settings.playlistTimestamp = .text value := by rw [hsettings]
  rw [Settings.reloaded_playlistTimestamp htext, htext]

end Keeper

/-! ## Runs -/

/-- A watch, what its clock last showed, and the videos announced so far. -/
structure Watch where
  /-- The watch. -/
  watcher : Watcher
  /-- What the clock last showed. -/
  clock : Timestamp
  /-- The videos announced so far, in the order of their announcements. -/
  announced : List Video

namespace Watch

/-- What may happen to a watch. A search, successful or not, reads a clock of universal time that
does not go back; a response lists each item once and none from the future; what is kept can be
saved. The settings may be reloaded from the file, with whatever the environment allows then. -/
inductive Step : Watch → Watch → Prop where
  | search {s : Watch} (o : Occasion) : s.clock.instant ≤ o.now.instant →
      o.now.offset = some Offset.zero → (∀ body, o.fetch = .response body → body.IsTimely o.now) →
      (∀ flaw, (s.watcher.announce o).reaction.failure ≠ some (.settings flaw)) →
      Step s ⟨(s.watcher.announce o).watcher, o.now, s.announced ++ s.watcher.posted o⟩
  | reload {s : Watch} {watcher : Watcher} (channels : Text) :
      Keeper.ofFile (some s.watcher.keeper.file) channels = .ok watcher.keeper →
      Step s { s with watcher }

/-- No announced video lies ahead of the clock or of the next search, which starts from the same
time after a reload. -/
structure IsBehind (s : Watch) : Prop where
  inSync : s.watcher.keeper.InSync
  behind : ∀ v ∈ s.announced, ∃ t since, v.moment? = some t ∧ t.instant ≤ s.clock.instant ∧
    s.watcher.start? = some since ∧ t.instant ≤ since.instant
  nodup : (s.announced.map Video.entry).Nodup

variable {s s' : Watch} {o : Occasion}

theorem start?_eq_of_playlistTimestamp_eq {w w' : Watcher}
    (h : w'.keeper.settings.playlistTimestamp = w.keeper.settings.playlistTimestamp) :
    w'.start? = w.start? := by
  rw [Watcher.start?, h, ← Watcher.start?]

/-- The videos that a successful search announces are new ones of the response, and the next search
starts no earlier than any of them, either later than this one or at the time that the clock
shows. -/
theorem exists_start_of_announced (h : (s.watcher.announce o).announced = true)
    (hzero : o.now.offset = some Offset.zero)
    (htimely : ∀ body, o.fetch = .response body → body.IsTimely o.now) :
    ∃ since next, s.watcher.start? = some since ∧
      (s.watcher.announce o).watcher.start? = some next ∧
      (next = o.now ∨ since.instant < next.instant) ∧
      ((s.watcher.posted o).map Video.entry).Nodup ∧
      ∀ v ∈ s.watcher.posted o, ∃ t, v.moment? = some t ∧ since.instant < t.instant ∧
        t.instant ≤ o.now.instant ∧ t.instant ≤ next.instant := by
  obtain ⟨since, body, f, text, next, hstart, hfetch, hf, htext, hnext, hmessages, hsettings⟩ :=
    Watcher.exists_of_announced h
  have hposted := Watcher.posted_eq h hstart hfetch hf
  have hkept := Watcher.start?_of_text (congrArg Settings.playlistTimestamp hsettings)
  obtain ⟨hdistinct, hpast⟩ := htimely body hfetch
  have hnodup : (f.videos.map Video.entry).Nodup :=
    hdistinct.sublist ((Finding.sublist_of_ofResponse hf).map _)
  have hnew : ∀ v ∈ f.videos, ∃ t, v.moment? = some t ∧ since.instant < t.instant ∧
      t.instant ≤ o.now.instant := by
    intro v hv
    obtain ⟨hmem, hisNew⟩ := Finding.mem_of_ofResponse hf hv
    obtain ⟨t, ht, -, hlt⟩ := Video.isNew_iff.mp hisNew
    exact ⟨t, ht, hlt, hpast v hmem t ht⟩
  rw [hposted]
  rcases Finding.exists_of_nextSince hnext with ⟨hnone, rfl⟩ | ⟨v, hv, t, rfl, ht, hlatest⟩
  · have hread : Timestamp.ofText? o.now.text = some o.now := by
      refine Timestamp.ofText?_text fun offset hoffset => ?_
      cases hzero.symm.trans hoffset
      exact Offset.isLegible_zero
    rw [Watcher.since_of_ofText? hread] at hkept
    refine ⟨since, o.now, hstart, hkept, .inl rfl, hnodup, ?_⟩
    rw [hnone]
    exact nofun
  · rw [Watcher.since_of_ofText? ht] at hkept
    obtain ⟨t₀, ht₀, hlt, -⟩ := hnew v hv
    cases ht.symm.trans ht₀
    refine ⟨since, t, hstart, hkept, .inr hlt, hnodup, fun u hu => ?_⟩
    obtain ⟨t', ht', hlt', hle'⟩ := hnew u hu
    obtain ⟨t₁, ht₁, hle⟩ := hlatest u hu
    cases ht'.symm.trans ht₁
    exact ⟨t', ht', hlt', hle', hle⟩

theorem moment?_eq_of_entry_eq {u v : Video} (h : u.entry = v.entry) : u.moment? = v.moment? :=
  congrArg Timestamp.ofText? (congrArg Prod.snd h)

theorem IsBehind.step (hs : s.IsBehind) (h : Step s s') : s'.IsBehind := by
  cases h with
  | search o hclock hzero htimely hsaved =>
    by_cases hannounced : (s.watcher.announce o).announced = true
    · obtain ⟨-, value, hvalue⟩ := Watcher.exists_setTimestamp_of_announced hannounced
      obtain ⟨since, next, hstart, hnext, hlater, hnodup, hposted⟩ :=
        exists_start_of_announced hannounced hzero htimely
      refine ⟨Keeper.inSync_of_setTimestamp hvalue, ?_, ?_⟩
      · intro v hv
        rcases List.mem_append.mp hv with hv | hv
        · obtain ⟨t, since', ht, hle, hstart', hbehind⟩ := hs.behind v hv
          cases hstart.symm.trans hstart'
          refine ⟨t, next, ht, Int.le_trans hle hclock, hnext, ?_⟩
          rcases hlater with rfl | hlater
          · exact Int.le_trans hle hclock
          · exact Int.le_of_lt (Int.lt_of_le_of_lt hbehind hlater)
        · obtain ⟨t, ht, -, hnow, hle⟩ := hposted v hv
          exact ⟨t, next, ht, hnow, hnext, hle⟩
      · rw [List.map_append, List.nodup_append]
        refine ⟨hs.nodup, hnodup, ?_⟩
        -- an item announced before would lie behind this search and ahead of it
        intro _ hold _ hnew heq
        obtain ⟨u, hu, rfl⟩ := List.mem_map.mp hold
        obtain ⟨v, hv, rfl⟩ := List.mem_map.mp hnew
        obtain ⟨t, since', ht, -, hstart', hbehind⟩ := hs.behind u hu
        obtain ⟨t', ht', hlt, -, -⟩ := hposted v hv
        rw [moment?_eq_of_entry_eq heq] at ht
        cases ht.symm.trans ht'
        cases hstart.symm.trans hstart'
        omega
    · have hposted : s.watcher.posted o = [] := if_neg hannounced
      rw [Watcher.watcher_eq_of_not_announced hannounced hsaved, hposted, List.append_nil]
      refine ⟨hs.inSync, fun v hv => ?_, hs.nodup⟩
      obtain ⟨t, since, ht, hle, hstart, hbehind⟩ := hs.behind v hv
      exact ⟨t, since, ht, Int.le_trans hle hclock, hstart, hbehind⟩
  | reload channels hreload =>
    have hstart := start?_eq_of_playlistTimestamp_eq (hs.inSync.reload hreload)
    refine ⟨Keeper.inSync_of_ofFile hreload, fun v hv => ?_, hs.nodup⟩
    obtain ⟨t, since, ht, hle, hsince, hbehind⟩ := hs.behind v hv
    exact ⟨t, since, ht, hle, hstart.trans hsince, hbehind⟩

/-- No video is announced twice. -/
theorem nodup_announced {file : Option Text} {channels : Text}
    (hfile : Keeper.ofFile file channels = .ok s.watcher.keeper)
    (hnone : s.announced = []) (hrun : Relation.ReflTransGen Step s s') :
    (s'.announced.map Video.entry).Nodup := by
  have hs : s.IsBehind := by
    refine ⟨Keeper.inSync_of_ofFile hfile, ?_, ?_⟩
    · rw [hnone]
      exact nofun
    · rw [hnone]
      exact List.nodup_nil
  have hs' : s'.IsBehind := by
    induction hrun with
    | refl => exact hs
    | tail _ hstep ih => exact ih.step hstep
  exact hs'.nodup

/-- A watch with a new file at the beginning of the year. -/
def newYearStart : Watch where
  watcher :=
    { key := some "key", keeper := ⟨Settings.standard, [], (Keeper.written .standard).1⟩
      running := true }
  clock := Scene.newYearEve.clock
  announced := []

/-- A search in the first seconds of the year whose response lists one video. -/
def newYearOccasion (second : Fin 60) : Occasion where
  fetch := .response (.ofPostings [newYearPosting])
  now := newYear second
  refusal := none

theorem isTimely_newYear {second : Fin 60} (h : 5 ≤ second) :
    (Json.ofPostings [newYearPosting]).IsTimely (newYear second) := by
  have hvideos : (Json.ofPostings [newYearPosting]).videos = [newYearPosting.video] := rfl
  refine ⟨?_, ?_⟩
  · rw [hvideos]
    exact List.pairwise_singleton _ _
  · intro v hv t ht
    rw [hvideos, List.mem_singleton] at hv
    subst hv
    cases newYearPosting.published.symm.trans ht
    revert second
    decide

/-- The watch after a search in the first seconds of the year, with its settings reloaded. -/
def newYearReloaded (second : Fin 60) : Watch :=
  let keeper := (newYearStart.watcher.announce (newYearOccasion second)).watcher.keeper
  { watcher :=
      { key := some "key", keeper := ⟨keeper.settings.reloaded, [], keeper.file⟩, running := true }
    clock := newYear second
    announced := newYearStart.watcher.posted (newYearOccasion second) }

theorem step_newYearOccasion {s : Watch} (second : Fin 60) (h : 5 ≤ second)
    (hclock : s.clock.instant ≤ (newYear second).instant)
    (hannounced : (s.watcher.announce (newYearOccasion second)).announced = true) :
    Step s ⟨(s.watcher.announce (newYearOccasion second)).watcher, newYear second,
      s.announced ++ s.watcher.posted (newYearOccasion second)⟩ := by
  refine .search (newYearOccasion second) hclock rfl ?_ ?_
  · rintro _ ⟨⟩
    exact isTimely_newYear h
  · rw [(Watcher.exists_setTimestamp_of_announced hannounced).1]
    exact nofun

theorem run_newYearReloaded :
    Relation.ReflTransGen Step newYearStart (newYearReloaded 10) := by
  have hannounced : (newYearStart.watcher.announce (newYearOccasion 10)).announced = true := by
    decide +kernel
  obtain ⟨-, value, hvalue⟩ := Watcher.exists_setTimestamp_of_announced hannounced
  obtain ⟨-, hread⟩ := Keeper.setTimestamp_eq_none hvalue
  have hstep := step_newYearOccasion 10 (by decide) (by decide) hannounced
  exact (Relation.ReflTransGen.single hstep).tail
    (.reload [] (bind_eq_ok_iff.mpr ⟨_, hread, rfl⟩))

/-- A video that two searches fetch, with a reload between them, is announced once. -/
theorem nodup_announced_newYear :
    ∃ s : Watch, Relation.ReflTransGen Step newYearStart s ∧
      s.announced.map Video.published = ["2024-01-01T00:00:05Z"] ∧
      (s.announced.map Video.entry).Nodup := by
  have hfile : Keeper.ofFile none [] = .ok newYearStart.watcher.keeper := rfl
  have hsecond : Step (newYearReloaded 10) _ :=
    step_newYearOccasion 20 (by decide) (by decide) (by decide +kernel)
  have hrun := run_newYearReloaded.tail hsecond
  exact ⟨_, hrun, by decide +kernel, nodup_announced hfile rfl hrun⟩

end Watch

end DiceBot
