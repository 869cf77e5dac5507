import DiceBot.Proofs.Calendar.RoundTrip
import DiceBot.Proofs.Playlist.Finding
import DiceBot.Proofs.Playlist.Listed
import DiceBot.Proofs.Playlist.Search

/-!
# A watched playlist

A playlist to which videos are added while it is watched. A search reads the time from which it
starts, fetches a response that lists the videos added so far, sends its announcement, reads the
clock, and keeps the time from which the next search starts. Videos may be added between any two of
these steps.

## Main definitions

* `Scene`: a playlist, its watch and a clock
* `Scene.Step`, `Scene.Run`: what may happen next, and what may happen
* `Scene.Finds`: what the search under way finds

## Main results

* `Scene.Step.exists_of_conclude`: what a concluded search announces, and where the next one starts
* `Scene.IsSound.run`: no search starts later than the clock or than the first search did
-/

namespace DiceBot

/-- How far the search under way has come. -/
inductive Stage where
  /-- There is none. -/
  | resting
  /-- It has read the time from which it starts. -/
  | begun
  /-- It has its response. -/
  | fetched (body : Json)
  /-- Its announcement has been sent. -/
  | sent (body : Json)

/-- The response of the search under way. -/
def Stage.body? : Stage → Option Json
  | .fetched body => some body
  | .sent body => some body
  | _ => none

/-- A playlist, its watch and a clock. -/
structure Scene where
  /-- The videos that have been added so far. -/
  playlist : List Posting
  /-- The watch over the playlist. -/
  watcher : Watcher
  /-- How far the search under way has come. -/
  stage : Stage
  /-- The time of the last event. -/
  clock : Timestamp

/-- What may happen to a playlist and its watch. -/
inductive Event where
  /-- A video is added, and it is published at that time. -/
  | add (p : Posting)
  /-- A search reads the time from which it starts. -/
  | start (time : Timestamp)
  /-- It fetches a response. -/
  | fetch (time : Timestamp) (body : Json)
  /-- It sends its announcement. -/
  | send (time : Timestamp)
  /-- It reads the clock and keeps the time from which the next search starts. -/
  | conclude (now : Timestamp) (report : WatchReport)

namespace Event

/-- Whether a response is fetched. -/
def IsFetch : Event → Prop
  | fetch _ _ => True
  | _ => False

/-- Whether a search is concluded. -/
def IsConclusion : Event → Prop
  | conclude _ _ => True
  | _ => False

end Event

namespace Scene

/-- What may happen next. The clock goes forward from one event to the next; a response lists the
videos added so far; a search is concluded as a success, by a clock of universal time. Between its
steps nothing changes the settings, so that what it reads first is what it starts from. -/
inductive Step : Scene → Event → Scene → Prop where
  | add {s : Scene} {p : Posting} : s.clock.isBefore? p.moment = some true →
      Step s (.add p) { s with playlist := s.playlist ++ [p], clock := p.moment }
  | start {s : Scene} (time : Timestamp) : s.clock.isBefore? time = some true →
      s.stage = .resting → Step s (.start time) { s with stage := .begun, clock := time }
  | fetch {s : Scene} (time : Timestamp) {body : Json} : s.clock.isBefore? time = some true →
      s.stage = .begun → body.Lists s.playlist →
      Step s (.fetch time body) { s with stage := .fetched body, clock := time }
  | send {s : Scene} (time : Timestamp) {body : Json} : s.clock.isBefore? time = some true →
      s.stage = .fetched body → Step s (.send time) { s with stage := .sent body, clock := time }
  | conclude {s : Scene} (now : Timestamp) {body : Json} {report : WatchReport} :
      s.clock.isBefore? now = some true → now.offset = some Offset.zero → s.stage = .sent body →
      s.watcher.announce ⟨.response body, now, none⟩ = report → report.announced = true →
      Step s (.conclude now report)
        { s with watcher := report.watcher, stage := .resting, clock := now }

/-- What may happen, event by event. -/
inductive Run (s : Scene) : List Event → Scene → Prop where
  | refl : Run s [] s
  | snoc {events : List Event} {s' s'' : Scene} {e : Event} :
      Run s events s' → Step s' e s'' → Run s (events ++ [e]) s''

/-- What the search under way finds in its response. -/
def Finds (s : Scene) (f : Finding) : Prop :=
  ∃ body since, s.stage.body? = some body ∧ s.watcher.start? = some since ∧
    Finding.ofResponse since body = .ok f

/-- No search is under way. The first one will start from a given time, which can be compared with
that of the clock, and no video in the playlist is from the future. -/
structure IsInitial (since : Timestamp) (s : Scene) : Prop where
  stage : s.stage = .resting
  clock : s.clock.hasOffset = true
  le_clock : ∀ p ∈ s.playlist, p.moment.instant ≤ s.clock.instant
  start : s.watcher.start? = some since
  hasOffset : since.hasOffset = true

variable {s s' : Scene} {since₀ : Timestamp} {e : Event} {events : List Event} {p : Posting}
  {body : Json}

theorem instant_lt_of_isBefore? {t u : Timestamp} (h : t.isBefore? u = some true) :
    t.hasOffset = u.hasOffset ∧ t.instant < u.instant := by
  obtain ⟨hoffset, hlt⟩ := Timestamp.isBefore?_eq_some_iff.mp h
  exact ⟨hoffset, of_decide_eq_true hlt⟩

section Finds

variable {f : Finding} {since : Timestamp} {postings : List Posting}

theorem Finds.ofResponse (hf : s.Finds f) (hbody : s.stage.body? = some body)
    (hstart : s.watcher.start? = some since) : Finding.ofResponse since body = .ok f := by
  obtain ⟨body', since', hbody', hstart', hf⟩ := hf
  cases hbody.symm.trans hbody'
  cases hstart.symm.trans hstart'
  exact hf

/-- A search finds new videos only, and only those in its response. -/
theorem Finds.exists_of_mem (hf : s.Finds f) (hbody : s.stage.body? = some body)
    (hlists : body.Lists postings) (hstart : s.watcher.start? = some since)
    (hoffset : since.hasOffset = true) (hv : p.video ∈ f.videos) :
    since.instant < p.moment.instant ∧ ∃ q ∈ postings, q.moment = p.moment := by
  obtain ⟨f', hf', hfound, -⟩ := Finding.exists_ofResponse hoffset hlists
  cases (hf.ofResponse hbody hstart).symm.trans hf'
  obtain ⟨q, hq, hnew, hvideo⟩ := hfound _ hv
  have hmoment := Posting.moment_eq_of_video_eq hvideo
  exact ⟨hmoment ▸ of_decide_eq_true hnew, q, hq, hmoment⟩

/-- A search finds all new videos in its response if there are not too many of them. -/
theorem Finds.mem (hf : s.Finds f) (hbody : s.stage.body? = some body)
    (hlists : body.Lists postings) (hstart : s.watcher.start? = some since)
    (hoffset : since.hasOffset = true) (hfew : f.overflow = false) (hp : p ∈ postings)
    (hlt : since.instant < p.moment.instant) : p.video ∈ f.videos := by
  obtain ⟨f', hf', -, hall⟩ := Finding.exists_ofResponse hoffset hlists
  cases (hf.ofResponse hbody hstart).symm.trans hf'
  exact hall hfew p hp (decide_eq_true hlt)

end Finds

/-- The clock goes forward. -/
theorem Step.clock_isBefore? (h : Step s e s') : s.clock.isBefore? s'.clock = some true := by
  cases h <;> assumption

theorem Step.exists_body? {now : Timestamp} {report : WatchReport}
    (h : Step s (.conclude now report) s') : ∃ body, s.stage.body? = some body := by
  cases h with
  | @conclude _ body _ _ _ hstage => exact ⟨body, congrArg Stage.body? hstage⟩

theorem Step.clock_eq {now : Timestamp} {report : WatchReport}
    (h : Step s (.conclude now report) s') : s'.clock = now := by
  cases h
  rfl

/-- A concluded search announces what it has found. The next one starts at the time of a video that
was found, or if there is none at the end of this one. -/
theorem Step.exists_of_conclude {now : Timestamp} {report : WatchReport} {since : Timestamp}
    {postings : List Posting} (h : Step s (.conclude now report) s')
    (hbody : s.stage.body? = some body) (hlists : body.Lists postings)
    (hstart : s.watcher.start? = some since) (hoffset : since.hasOffset = true) :
    ∃ f text, s.Finds f ∧
      f.announcement since s.watcher.keeper.settings.playlistName = .ok text ∧
      report.reaction.messages = [.post text] ∧
      ((f.videos = [] ∧ s'.watcher.start? = some now) ∨
        f.videos ≠ [] ∧ ∃ q ∈ postings, since.instant < q.moment.instant ∧
          s'.watcher.start? = some q.moment) := by
  cases h with
  | conclude _ _ hzero hstage hreport hannounced =>
    rw [hstage] at hbody
    cases hbody
    subst hreport
    obtain ⟨since', body', f, text, next, hstart', hfetch, hf, htext, hnext, hmessages,
      hsettings⟩ := Watcher.exists_of_announced hannounced
    cases hstart.symm.trans hstart'
    cases hfetch
    have hkept := Watcher.start?_of_text (congrArg Settings.playlistTimestamp hsettings)
    refine ⟨f, text, ⟨body, since, congrArg Stage.body? hstage, hstart, hf⟩, htext, hmessages, ?_⟩
    rcases Finding.nextSince_eq_ok hnext with ⟨hnone, rfl⟩ | ⟨v, hv, rfl⟩
    · have hread : Timestamp.ofText? now.text = some now := by
        refine Timestamp.ofText?_text fun o ho => ?_
        cases hzero.symm.trans ho
        exact Offset.isLegible_zero
      exact .inl ⟨hnone, hkept.trans (by rw [Watcher.since_of_ofText? hread])⟩
    · obtain ⟨f', hf', hfound, -⟩ := Finding.exists_ofResponse hoffset hlists
      cases hf.symm.trans hf'
      obtain ⟨q, hq, hnew, rfl⟩ := hfound v hv
      exact .inr ⟨List.ne_nil_of_mem hv, q, hq, of_decide_eq_true hnew,
        hkept.trans (by rw [Watcher.since_of_ofText? q.published])⟩

theorem Step.mem (h : Step s e s') (hmem : p ∈ s.playlist) : p ∈ s'.playlist := by
  cases h with
  | add => exact List.mem_append_left _ hmem
  | start | fetch | send | conclude => exact hmem

/-! ## The time from which a search starts -/

/-- Nothing lies ahead of the clock: no video was added later than it shows, and no search starts
later, unless the first one did. -/
structure IsSound (since₀ : Timestamp) (s : Scene) : Prop where
  hasOffset : s.clock.hasOffset = true
  le_clock : ∀ p ∈ s.playlist, p.moment.instant ≤ s.clock.instant
  lists : ∀ body, s.stage.body? = some body →
    ∃ postings, postings ⊆ s.playlist ∧ body.Lists postings
  start : ∃ since, s.watcher.start? = some since ∧ since.hasOffset = true ∧
    since.instant ≤ max since₀.instant s.clock.instant

theorem IsInitial.isSound (h : s.IsInitial since₀) : s.IsSound since₀ where
  hasOffset := h.clock
  le_clock := h.le_clock
  lists body hbody := by
    rw [h.stage] at hbody
    cases hbody
  start := ⟨since₀, h.start, h.hasOffset, by omega⟩

/-- An event that leaves the watch as it is only moves the clock on. -/
theorem IsSound.of_watcher_eq (hs : s.IsSound since₀) (hwatcher : s'.watcher = s.watcher)
    (hclock : s.clock.isBefore? s'.clock = some true)
    (hplaylist : ∀ p ∈ s'.playlist, p ∈ s.playlist ∨ p.moment = s'.clock)
    (hlists : ∀ body, s'.stage.body? = some body →
      ∃ postings, postings ⊆ s'.playlist ∧ body.Lists postings) : s'.IsSound since₀ := by
  obtain ⟨hoffset, hlt⟩ := instant_lt_of_isBefore? hclock
  obtain ⟨since, hstart, hsince, hle⟩ := hs.start
  refine ⟨hoffset ▸ hs.hasOffset, fun p hp => ?_, hlists, since, hwatcher ▸ hstart, hsince, ?_⟩
  · rcases hplaylist p hp with hp | hp
    · exact Int.le_of_lt (Int.lt_of_le_of_lt (hs.le_clock p hp) hlt)
    · exact Int.le_of_eq (congrArg _ hp)
  · omega

/-- The next search starts no later than this one ends, and if it starts earlier, it starts after
this one did. -/
theorem IsSound.exists_next {now : Timestamp} {report : WatchReport} (hs : s.IsSound since₀)
    (h : Step s (.conclude now report) s') :
    ∃ since next, s.watcher.start? = some since ∧ s'.watcher.start? = some next ∧
      next.hasOffset = true ∧ next.instant ≤ now.instant ∧
      (next = now ∨ since.instant < next.instant) := by
  obtain ⟨hoffset, hlt⟩ := instant_lt_of_isBefore? (h.clock_eq ▸ h.clock_isBefore?)
  obtain ⟨body, hbody⟩ := h.exists_body?
  obtain ⟨postings, hsub, hlists⟩ := hs.lists body hbody
  obtain ⟨since, hstart, hsince, -⟩ := hs.start
  obtain ⟨f, text, -, -, -, hnext⟩ := h.exists_of_conclude hbody hlists hstart hsince
  rcases hnext with ⟨-, hnext⟩ | ⟨-, q, hq, hlater, hnext⟩
  · exact ⟨since, now, hstart, hnext, hoffset ▸ hs.hasOffset, Int.le_refl _, .inl rfl⟩
  · have hle := hs.le_clock q (hsub hq)
    exact ⟨since, q.moment, hstart, hnext, q.hasOffset, by omega, .inr hlater⟩

theorem IsSound.step (hs : s.IsSound since₀) (h : Step s e s') : s'.IsSound since₀ := by
  have h' := h
  cases h with
  | @add p hclock =>
    refine hs.of_watcher_eq rfl hclock (fun q hq => ?_) fun body hbody => ?_
    · rcases List.mem_append.mp hq with hq | hq
      · exact .inl hq
      · exact .inr (congrArg Posting.moment (List.mem_singleton.mp hq))
    · obtain ⟨postings, hsub, hlists⟩ := hs.lists body hbody
      exact ⟨postings, List.subset_append_of_subset_left _ hsub, hlists⟩
  | start _ hclock =>
    exact hs.of_watcher_eq rfl hclock (fun _ hq => .inl hq) (by rintro body ⟨⟩)
  | fetch _ hclock _ hlists =>
    refine hs.of_watcher_eq rfl hclock (fun _ hq => .inl hq) fun body hbody => ?_
    cases hbody
    exact ⟨s.playlist, List.Subset.refl _, hlists⟩
  | send _ hclock hstage =>
    refine hs.of_watcher_eq rfl hclock (fun _ hq => .inl hq) fun body hbody => ?_
    exact hs.lists body ((congrArg Stage.body? hstage).trans hbody)
  | @conclude now body report hclock =>
    obtain ⟨hoffset, hlt⟩ := instant_lt_of_isBefore? hclock
    obtain ⟨_, next, -, hnext, hnextOffset, hle, -⟩ := hs.exists_next h'
    refine ⟨hoffset ▸ hs.hasOffset, fun q hq => ?_, by rintro body ⟨⟩, next, hnext, hnextOffset, ?_⟩
    · exact Int.le_of_lt (Int.lt_of_le_of_lt (hs.le_clock q hq) hlt)
    · exact Int.le_trans hle (Int.le_max_right _ _)

/-- No search starts later than the clock or than the first search did. -/
theorem IsSound.run (hs : s.IsSound since₀) (h : Run s events s') : s'.IsSound since₀ := by
  induction h with
  | refl => exact hs
  | snoc _ hstep ih => exact ih.step hstep

/-- The time from which a search starts never goes back behind a video that was added. -/
theorem IsSound.start_step {since : Timestamp} (hs : s.IsSound since₀) (hmem : p ∈ s.playlist)
    (hstart : s.watcher.start? = some since) (hle : p.moment.instant ≤ since.instant)
    (h : Step s e s') :
    ∃ next, s'.watcher.start? = some next ∧ p.moment.instant ≤ next.instant := by
  have h' := h
  have hclock := hs.le_clock p hmem
  cases h with
  | add | start | fetch | send => exact ⟨since, hstart, hle⟩
  | @conclude now body _ hbefore =>
    have hlt := (instant_lt_of_isBefore? hbefore).2
    obtain ⟨since', next, hstart', hnext, -, -, hlater⟩ := hs.exists_next h'
    cases hstart.symm.trans hstart'
    refine ⟨next, hnext, ?_⟩
    rcases hlater with rfl | hlater
    · omega
    · omega

end Scene

end DiceBot
