import DiceBot.Proofs.Playlist.Scene

/-!
# Videos added during a watch

The next search to fetch a response after a video was added knows of the video, and it announces
the video if it starts early enough. It does not if another search was under way that had fetched
its response before and found nothing: that search hands on what the clock shows at its end, and
the video that was added between its fetch and its end is lost.

## Main definitions

* `Scene.IsBlind`: a search is under way that has fetched its response and finds nothing
* `Scene.FirstSearch`: a video is added, and the first search that fetches from then on is concluded
* `Scene.IsPending`, `Scene.IsLost`: a video is not fetched yet, or will never be found

## Main results

* `Scene.found_iff_not_isBlind`: a video is announced unless it was added during a blind search
* `Scene.notMem_of_isBlind`: a video that was added during a blind search is never found
-/

namespace DiceBot

namespace Scene

/-- A search is under way that has fetched its response and finds nothing. -/
def IsBlind (s : Scene) : Prop :=
  ∃ f, s.Finds f ∧ f.videos = []

/-- In a scene a video is added, and the first search that fetches a response from then on is
concluded with a report in another scene. -/
inductive FirstSearch (s : Scene) (p : Posting) (last : Scene) (report : WatchReport) : Prop where
  | intro {added before after done : Scene} {events events' : List Event} {time now : Timestamp}
      {body : Json} :
      Step s (.add p) added →
      Run added events before → (∀ e ∈ events, ¬ e.IsFetch) →
      Step before (.fetch time body) after →
      Run after events' last → (∀ e ∈ events', ¬ e.IsConclusion) →
      Step last (.conclude now report) done → FirstSearch s p last report

variable {s s' : Scene} {since₀ : Timestamp} {e : Event} {events : List Event} {p : Posting}
  {body : Json}

/-- Whether a search is blind depends on its response and on the time from which it starts. -/
theorem isBlind_congr (hbody : s'.stage.body? = s.stage.body?) (hwatcher : s'.watcher = s.watcher) :
    s'.IsBlind ↔ s.IsBlind := by
  unfold IsBlind Finds
  rw [hbody, hwatcher]

theorem not_isBlind_of_body? (h : s.stage.body? = none) : ¬ s.IsBlind := by
  rintro ⟨f, ⟨body, since, hbody, -⟩, -⟩
  rw [h] at hbody
  cases hbody

/-! ## From an addition to the next fetch -/

/-- A video was added and is not fetched yet. -/
inductive IsPending (blind : Prop) (p : Posting) (s : Scene) : Prop where
  /-- The search under way does not know of the video; it is blind or is not. -/
  | unknown {body : Json} {postings : List Posting} : p ∈ s.playlist →
      s.stage.body? = some body → body.Lists postings →
      (∀ q ∈ postings, q.moment.instant < p.moment.instant) → (s.IsBlind ↔ blind) →
      IsPending blind p s
  /-- The next search to fetch starts before the video, unless one was blind. -/
  | ahead {since : Timestamp} : p ∈ s.playlist → s.stage.body? = none →
      s.watcher.start? = some since → (since.instant < p.moment.instant ↔ ¬ blind) →
      IsPending blind p s

theorem IsSound.isPending (hs : s.IsSound since₀) (h : Step s (.add p) s')
    (hnew : since₀.isBefore? p.moment = some true) : IsPending s.IsBlind p s' := by
  cases h with
  | add hclock =>
    obtain ⟨-, hlt⟩ := instant_lt_of_isBefore? hclock
    have hmem : p ∈ s.playlist ++ [p] := List.mem_append_right _ List.mem_cons_self
    cases hbody : s.stage.body? with
    | some body =>
      obtain ⟨postings, hsub, hlists⟩ := hs.lists body hbody
      refine .unknown hmem hbody hlists (fun q hq => ?_) (isBlind_congr rfl rfl)
      exact Int.lt_of_le_of_lt (hs.le_clock q (hsub hq)) hlt
    | none =>
      obtain ⟨since, hstart, -, hle⟩ := hs.start
      obtain ⟨-, hlt₀⟩ := instant_lt_of_isBefore? hnew
      exact .ahead hmem hbody hstart
        (iff_of_true (by omega) (not_isBlind_of_body? hbody))

/-- The search after one that did not know of a video starts before the video, unless that search
was blind. -/
theorem Step.start_lt_iff {now : Timestamp} {report : WatchReport} {postings : List Posting}
    (hs : s.IsSound since₀) (h : Step s (.conclude now report) s')
    (hbody : s.stage.body? = some body) (hlists : body.Lists postings)
    (hbefore : ∀ q ∈ postings, q.moment.instant < p.moment.instant)
    (hle : p.moment.instant ≤ s.clock.instant) :
    ∃ since, s'.watcher.start? = some since ∧
      (since.instant < p.moment.instant ↔ ¬ s.IsBlind) := by
  obtain ⟨since, hstart, hsince, -⟩ := hs.start
  obtain ⟨f, text, hf, -, -, hnext⟩ := h.exists_of_conclude hbody hlists hstart hsince
  rcases hnext with ⟨hnone, hnext⟩ | ⟨hsome, q, hq, -, hnext⟩
  · have hlt := (instant_lt_of_isBefore? (h.clock_eq ▸ h.clock_isBefore?)).2
    exact ⟨now, hnext, iff_of_false (by omega) (not_not_intro ⟨f, hf, hnone⟩)⟩
  · refine ⟨q.moment, hnext, iff_of_true (hbefore q hq) ?_⟩
    rintro ⟨f', hf', hnone⟩
    cases (hf.ofResponse hbody hstart).symm.trans (hf'.ofResponse hbody hstart)
    exact hsome hnone

theorem IsPending.mem {blind : Prop} (h : IsPending blind p s) : p ∈ s.playlist := by
  cases h <;> assumption

theorem IsPending.step {blind : Prop} (hs : s.IsSound since₀) (hp : IsPending blind p s)
    (h : Step s e s') (hfetch : ¬ e.IsFetch) : IsPending blind p s' := by
  have h' := h
  have hle := hs.le_clock p hp.mem
  cases h with
  | add =>
    cases hp with
    | unknown hmem hbody hlists hbefore hblind =>
      exact .unknown (List.mem_append_left _ hmem) hbody hlists hbefore
        ((isBlind_congr rfl rfl).trans hblind)
    | ahead hmem hbody hstart hiff =>
      exact .ahead (List.mem_append_left _ hmem) hbody hstart hiff
  | start _ _ hstage =>
    cases hp with
    | unknown _ hbody =>
      rw [hstage] at hbody
      cases hbody
    | ahead hmem hbody hstart hiff => exact .ahead hmem rfl hstart hiff
  | fetch => exact absurd trivial hfetch
  | @send _ body _ hstage =>
    have hsame : s.stage.body? = some body := congrArg Stage.body? hstage
    cases hp with
    | unknown hmem hbody hlists hbefore hblind =>
      refine .unknown hmem (hsame.symm.trans hbody) hlists hbefore (Iff.trans ?_ hblind)
      exact isBlind_congr hsame.symm rfl
    | ahead _ hbody => cases hsame.symm.trans hbody
  | @conclude _ body _ _ _ hstage =>
    have hsame : s.stage.body? = some body := congrArg Stage.body? hstage
    cases hp with
    | unknown hmem hbody hlists hbefore hblind =>
      obtain ⟨since, hstart, hiff⟩ := h'.start_lt_iff hs hbody hlists hbefore hle
      exact .ahead hmem rfl hstart (hiff.trans (not_congr hblind))
    | ahead _ hbody => cases hsame.symm.trans hbody

theorem IsPending.run {blind : Prop} (hs : s.IsSound since₀) (hp : IsPending blind p s)
    (h : Run s events s') (hfetch : ∀ e ∈ events, ¬ e.IsFetch) : IsPending blind p s' := by
  induction h with
  | refl => exact hp
  | snoc hrun hstep ih =>
    have ih := ih fun e he => hfetch e (List.mem_append_left _ he)
    exact ih.step (hs.run hrun) hstep (hfetch _ (List.mem_append_right _ List.mem_cons_self))

/-! ## From a fetch to the end of the search -/

/-- A search that has fetched its response keeps what it found until its end. -/
theorem Run.watcher_eq (h : Run s events s') (hbody : s.stage.body? = some body)
    (hend : ∀ e ∈ events, ¬ e.IsConclusion) :
    s'.stage.body? = some body ∧ s'.watcher = s.watcher := by
  induction h with
  | refl => exact ⟨hbody, rfl⟩
  | snoc hrun hstep ih =>
    obtain ⟨hbody', hwatcher⟩ := ih fun e he => hend e (List.mem_append_left _ he)
    cases hstep with
    | add => exact ⟨hbody', hwatcher⟩
    | start _ _ hstage | fetch _ _ hstage =>
      rw [hstage] at hbody'
      cases hbody'
    | send _ _ hstage =>
      rw [hstage] at hbody'
      exact ⟨hbody', hwatcher⟩
    | conclude => exact absurd trivial (hend _ (List.mem_append_right _ List.mem_cons_self))

end Scene

/-! ## A run -/

/-- Universal time, some seconds into the year 2024. -/
def newYear (second : Fin 60) : Timestamp where
  date := ⟨2024, 1, 1, by decide, by decide, by decide, by decide⟩
  clock := { Clock.midnight with second, second_lt := second.isLt }
  offset := some Offset.zero

/-- A video that is published five seconds into the year. -/
def newYearPosting : Posting where
  item := .object [("snippet", .object [("title", .text "T"), ("description", .text "d"),
    ("publishedAt", .text "2024-01-01T00:00:05Z"),
    ("resourceId", .object [("videoId", .text "ID")])])]
  video := ⟨.text "T", .text "d", .text "ID", "2024-01-01T00:00:05Z"⟩
  moment := newYear 5
  hasOffset := rfl
  published := by decide +kernel
  described := ⟨_, rfl, rfl, rfl⟩

/-- A response that lists some postings in the order in which they were added. -/
def Json.ofPostings (postings : List Posting) : Json :=
  .object [("items", .array (postings.map Posting.item))]

theorem Json.lists_ofPostings (postings : List Posting) : (ofPostings postings).Lists postings :=
  ⟨postings, .refl _, rfl⟩

namespace Scene

/-- The watch of the standard settings at the beginning of the year. -/
def newYearEve : Scene where
  playlist := []
  watcher := { key := some "key", keeper := ⟨Settings.standard, [], []⟩, running := true }
  stage := .resting
  clock := newYear 0

theorem isInitial_newYearEve : newYearEve.IsInitial Watcher.firstMoment where
  stage := rfl
  clock := rfl
  le_clock _ hp := by cases hp
  start := by
    have h : Timestamp.ofText? Settings.firstTimestamp = some Watcher.firstMoment := by
      decide +kernel
    rw [Watcher.start?_of_text rfl, Watcher.since_of_ofText? h]
  hasOffset := rfl

/-- A search at the beginning of the year. -/
def newYearSearch : Scene :=
  { newYearEve with stage := .begun, clock := newYear 1 }

theorem run_newYearSearch : Run newYearEve [.start (newYear 1)] newYearSearch :=
  Run.refl.snoc (.start _ (by decide) rfl)

/-- A video is found by the first search that fetches after it was added, and its line stands in the
announcement, exactly if it was not added during a blind search. -/
theorem found_iff_not_isBlind {s₀ last : Scene} {report : WatchReport} (h₀ : s₀.IsInitial since₀)
    (hrun : Run s₀ events s) (hnew : since₀.isBefore? p.moment = some true)
    (hfirst : FirstSearch s p last report) (hfew : ∀ f, last.Finds f → f.overflow = false) :
    ∃ f text, last.Finds f ∧ report.reaction.messages = [.post text] ∧
      (p.video ∈ f.videos ↔ ¬ s.IsBlind) ∧
      (p.video ∈ f.videos → ∃ n, Finding.line n p.video <:+: text) := by
  obtain ⟨hadd, hbefore, hnofetch, hfetch, hafter, hnoend, hconclude⟩ := hfirst
  have hs := (h₀.isSound.run hrun).step hadd
  have hpending := ((h₀.isSound.run hrun).isPending hadd hnew).run hs hbefore hnofetch
  have hsound := (hs.run hbefore).step hfetch
  cases hfetch with
  | @fetch _ body _ hstage hlists =>
    cases hpending with
    | unknown _ hbody =>
      rw [hstage] at hbody
      cases hbody
    | @ahead since hmem _ hstart hiff =>
      obtain ⟨hbody, hwatcher⟩ := hafter.watcher_eq rfl hnoend
      obtain ⟨since', hstart', hsince, -⟩ := hsound.start
      cases hstart.symm.trans hstart'
      have hstart := (congrArg Watcher.start? hwatcher).trans hstart
      obtain ⟨f, text, hf, htext, hmessages, -⟩ :=
        hconclude.exists_of_conclude hbody hlists hstart hsince
      have hfound : p.video ∈ f.videos ↔ since.instant < p.moment.instant :=
        ⟨fun hv => (hf.exists_of_mem hbody hlists hstart hsince hv).1,
          hf.mem hbody hlists hstart hsince (hfew f hf) hmem⟩
      exact ⟨f, text, hf, hmessages, hfound.trans hiff, Finding.exists_line_of_mem htext⟩

/-- A search finds a video that was added before its fetch. -/
theorem found_of_added_before_fetch :
    ∃ (last : Scene) (report : WatchReport) (f : Finding) (text : Text),
      FirstSearch newYearSearch newYearPosting last report ∧ last.Finds f ∧
      report.reaction.messages = [.post text] ∧ newYearPosting.video ∈ f.videos := by
  have hfirst : FirstSearch newYearSearch newYearPosting _ _ :=
    .intro (.add (by decide)) .refl (by simp)
      (.fetch (newYear 6) (by decide) rfl (Json.lists_ofPostings [newYearPosting]))
      (Run.refl.snoc (.send (newYear 7) (by decide) rfl)) (by simp [Event.IsConclusion])
      (.conclude (newYear 9) (by decide) rfl rfl rfl (by decide +kernel))
  have hfew (f : Finding) (hf : Finds { newYearSearch with
      playlist := [newYearPosting], stage := .sent (.ofPostings [newYearPosting]),
      clock := newYear 7 } f) : f.overflow = false := by
    cases hf.ofResponse rfl isInitial_newYearEve.start
    rfl
  obtain ⟨f, text, hf, hmessages, hiff, -⟩ := found_iff_not_isBlind isInitial_newYearEve
    run_newYearSearch (by decide) hfirst hfew
  exact ⟨_, _, f, text, hfirst, hf, hmessages, hiff.mpr (not_isBlind_of_body? rfl)⟩

/-! ## Lost videos -/

/-- A video that was added is lost: it is pending behind a blind search, or no search starts early
enough any more. -/
inductive IsLost (p : Posting) (s : Scene) : Prop where
  | pending : IsPending True p s → IsLost p s
  | past {since : Timestamp} : p ∈ s.playlist → s.watcher.start? = some since →
      p.moment.instant ≤ since.instant → IsLost p s

theorem IsLost.step (hs : s.IsSound since₀) (hp : IsLost p s) (h : Step s e s') :
    IsLost p s' := by
  cases hp with
  | past hmem hstart hle =>
    obtain ⟨next, hnext, hle⟩ := hs.start_step hmem hstart hle h
    exact .past (h.mem hmem) hnext hle
  | pending hp =>
    by_cases hfetch : e.IsFetch
    · cases h with
      | fetch _ _ hstage =>
        cases hp with
        | unknown _ hbody =>
          rw [hstage] at hbody
          cases hbody
        | ahead hmem _ hstart hiff =>
          exact .past hmem hstart (Int.not_lt.mp fun hlt => hiff.mp hlt trivial)
      | add | start | send | conclude => exact absurd hfetch id
    · exact .pending (hp.step hs h hfetch)

theorem IsLost.run (hs : s.IsSound since₀) (hp : IsLost p s) (h : Run s events s') :
    IsLost p s' := by
  induction h with
  | refl => exact hp
  | snoc hrun hstep ih => exact ih.step (hs.run hrun) hstep

theorem IsLost.notMem {f : Finding} (hs : s.IsSound since₀) (hp : IsLost p s) (hf : s.Finds f) :
    p.video ∉ f.videos := by
  intro hv
  have ⟨body, _, hbody, _⟩ := hf
  obtain ⟨since, hstart, hsince, -⟩ := hs.start
  cases hp with
  | past hmem hstart' hle =>
    obtain ⟨postings, -, hlists⟩ := hs.lists body hbody
    obtain ⟨hlt, -⟩ := hf.exists_of_mem hbody hlists hstart hsince hv
    cases hstart.symm.trans hstart'
    omega
  | pending hp =>
    cases hp with
    | unknown _ hbody' hlists hbefore =>
      cases hbody.symm.trans hbody'
      obtain ⟨-, q, hq, hmoment⟩ := hf.exists_of_mem hbody hlists hstart hsince hv
      have hlt := hbefore q hq
      rw [hmoment] at hlt
      exact Int.lt_irrefl _ hlt
    | ahead _ hnone =>
      cases hbody.symm.trans hnone

/-- A video that is added during a blind search is never found. -/
theorem notMem_of_isBlind {s₀ t : Scene} {events' : List Event} {f : Finding}
    (h₀ : s₀.IsInitial since₀) (hrun : Run s₀ events s)
    (hnew : since₀.isBefore? p.moment = some true) (hblind : s.IsBlind)
    (hadd : Step s (.add p) s') (hlater : Run s' events' t) (hf : t.Finds f) :
    p.video ∉ f.videos := by
  have hs := h₀.isSound.run hrun
  have hpending := hs.isPending hadd hnew
  rw [eq_true hblind] at hpending
  have hlost := (IsLost.pending hpending).run (hs.step hadd) hlater
  exact hlost.notMem ((hs.step hadd).run hlater) hf

/-- A search at the beginning of the year that has fetched a response without videos. -/
def newYearBlind : Scene :=
  { newYearEve with stage := .fetched (.ofPostings []), clock := newYear 2 }

theorem run_newYearBlind :
    Run newYearEve [.start (newYear 1), .fetch (newYear 2) (.ofPostings [])] newYearBlind :=
  run_newYearSearch.snoc (.fetch _ (by decide) rfl (Json.lists_ofPostings []))

/-- The only video of a playlist is added between the fetch and the end of a blind search, and the
first search that fetches it announces that there is none. -/
theorem lost_of_added_after_fetch :
    ∃ (last : Scene) (report : WatchReport), newYearEve.IsInitial Watcher.firstMoment ∧
      Run newYearEve [.start (newYear 1), .fetch (newYear 2) (.ofPostings [])] newYearBlind ∧
      Watcher.firstMoment.isBefore? newYearPosting.moment = some true ∧
      FirstSearch newYearBlind newYearPosting last report ∧ last.playlist = [newYearPosting] ∧
      (∀ f, last.Finds f → newYearPosting.video ∉ f.videos) ∧
      report.reaction.messages =
        [.post "No videos added to Bael's playlist since 2024/01/01 00:00:10"] := by
  have hfirst : FirstSearch newYearBlind newYearPosting _ _ :=
    .intro (.add (by decide))
      (((Run.refl.snoc (.send (newYear 7) (by decide) rfl)).snoc
        (.conclude (newYear 10) (by decide) rfl rfl rfl (by decide +kernel))).snoc
        (.start (newYear 11) (by decide) rfl)) (by simp [Event.IsFetch])
      (.fetch (newYear 12) (by decide) rfl (Json.lists_ofPostings [newYearPosting]))
      (Run.refl.snoc (.send (newYear 13) (by decide) rfl)) (by simp [Event.IsConclusion])
      (.conclude (newYear 20) (by decide) rfl rfl rfl (by decide +kernel))
  refine ⟨_, _, isInitial_newYearEve, run_newYearBlind, by decide, hfirst, rfl, ?_, ?_⟩
  · rintro f ⟨body, since, hbody, hstart, hf⟩ hv
    cases hbody
    cases hstart
    cases hf
    cases hv
  · decide +kernel

end Scene

end DiceBot
