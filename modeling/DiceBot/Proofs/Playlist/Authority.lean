import DiceBot.Proofs.Playlist.Announced

/-!
# Who moves the watch

A watch on duty: it is resumed at a start of the bot, it ticks while it is on, and developers
manage it by commands. A tick waits for the server and for the chat, and whatever else happens may
happen while it waits. Through all of this the channel of the announcements is moved by a
developer's `init` alone, and the time of the next search by a developer's `reset` and by a search
that was announced; the commands of others do nothing. Without a key the watch is never on and
nothing is ever requested.

## Main definitions

* `Watcher.setOut`, `Watcher.complete`: a tick before and after its wait
* `Duty`: a watch with the search under way
* `Duty.Step`, `Duty.Run`: what may happen next, and what may happen

## Main results

* `Watcher.tick_eq`, `Duty.run_tick`: the two halves are the tick if nothing comes between
* `Duty.Step.moves`: what a step makes of the settings
* `Duty.IsOff.run`: without a key the watch stays off
* `Duty.moved_by_authority`: what moves the watch
-/

namespace DiceBot

/-- What a search keeps in mind while it waits for the server. -/
structure OpenSearch where
  /-- The time from which it searches. -/
  since : Timestamp
  /-- What the journal will be told besides. -/
  journal : List Entry
deriving DecidableEq

namespace Watcher

/-! ## A tick and its wait -/

/-- A tick up to its request, with the search that waits for the response. -/
def setOut (w : Watcher) (visible : List Int) : WatchReport × Option OpenSearch :=
  let channel := w.keeper.settings.announceChannel
  match seesChannel visible channel with
  | .error flaw => ({ watcher := w, reaction := .fail (.settings flaw) }, none)
  | .ok false =>
    ({ watcher := w
       reaction := { journal := [⟨.warning, "找不到播放清單通知頻道 " ++ channel.shown⟩] } }, none)
  | .ok true =>
    match w.keeper.settings.playlistTimestamp with
    | .text stored =>
      ({ watcher := w, request := some w.request }, some ⟨(since stored).1, (since stored).2⟩)
    | _ => ({ watcher := w, reaction := .fail (.playlist .notText) }, none)

/-- A tick from its response on. Between the response and the delivery of the announcement the
search reads nothing that could have changed, so that the two come as one. -/
def complete (w : Watcher) (search : OpenSearch) (o : Occasion) : WatchReport :=
  let stop (r : Reaction) : WatchReport :=
    { watcher := w, reaction := { r with journal := search.journal ++ r.journal } }
  tolerated <|
    match o.fetch with
    | .unreachable => stop (.fail .unreachable)
    | .failed reason =>
      stop { journal := [⟨.error, "查詢播放清單時出錯: " ++ fetchComplaint reason⟩] }
    | .response body =>
      match w.prepare search.since o.now body with
      | .error flaw => stop (.fail (.playlist flaw))
      | .ok (finding, announcement, next) =>
        match o.refusal with
        | some e => stop (.fail (.service e))
        | none => { w.conclude search.journal finding announcement next with request := none }

section Tolerated

variable (r : WatchReport)

@[simp] theorem tolerated_watcher : (tolerated r).watcher = r.watcher := by
  unfold tolerated
  split <;> rfl

@[simp] theorem tolerated_messages :
    (tolerated r).reaction.messages = r.reaction.messages := by
  unfold tolerated
  split <;> rfl

@[simp] theorem tolerated_request : (tolerated r).request = r.request := by
  unfold tolerated
  split <;> rfl

theorem tolerated_requesting (request : Option PlaylistRequest) :
    { tolerated r with request } = tolerated { r with request } := by
  unfold tolerated
  split <;> simp_all

end Tolerated

variable {w : Watcher} {o : Occasion}

/-- The two halves of a tick are the tick, if nothing comes between. -/
theorem tick_eq (w : Watcher) (visible : List Int) (o : Occasion) :
    w.tick visible o = match w.setOut visible with
      | (report, none) => report
      | (report, some search) => { w.complete search o with request := report.request } := by
  unfold tick setOut
  dsimp only
  cases seesChannel visible w.keeper.settings.announceChannel with
  | error flaw => rfl
  | ok seen =>
    cases seen with
    | false => rfl
    | true =>
      unfold announce
      cases w.keeper.settings.playlistTimestamp with
      | text stored =>
        dsimp only
        rw [complete, tolerated_requesting]
        refine congrArg tolerated ?_
        cases o.fetch with
        | unreachable => rfl
        | failed reason => rfl
        | response body =>
          dsimp only
          cases w.prepare (since stored).1 o.now body with
          | error flaw => rfl
          | ok prepared =>
            obtain ⟨f, text, next⟩ := prepared
            cases o.refusal with
            | some e => rfl
            | none =>
              obtain ⟨_, hrequest, _⟩ := w.conclude_eq (since stored).2 f text next
              dsimp only
              rw [← hrequest]
      | null | bool | integer | float | array | object => rfl

/-! ## What moves the watch -/

/-- What a command makes of the watch. -/
inductive Obeys (w : Watcher) (author channel : Int) (action : Text) : Watcher → Prop where
  | nothing : Obeys w author channel action w
  | init {w' : Watcher} : w.keeper.isDeveloper author = .ok true →
      action.map CodePoint.asciiLower = Text.ofString "init" → w.hasKey = true → w'.key = w.key →
      w'.keeper.settings = { w.keeper.settings with announceChannel := .integer channel } →
      Obeys w author channel action w'
  | reset {w' : Watcher} : w.keeper.isDeveloper author = .ok true →
      action.map CodePoint.asciiLower = Text.ofString "reset" → w'.key = w.key →
      w'.running = w.running →
      w'.keeper.settings =
        { w.keeper.settings with playlistTimestamp := .text Settings.firstTimestamp } →
      Obeys w author channel action w'

section Commands

variable (w) (author channel : Int) (action : Text) (refusal : Option ServiceError)

/-- The watch after it was started in a channel. -/
theorem begin_of_hasKey (hkey : w.hasKey = true) :
    (w.begin channel refusal).watcher.key = w.key ∧
      (w.begin channel refusal).watcher.keeper.settings =
        { w.keeper.settings with announceChannel := .integer channel } := by
  have hsettings : (w.keeper.setChannel (.integer channel)).1.settings =
      { w.keeper.settings with announceChannel := .integer channel } := rfl
  unfold begin
  rw [hkey, Bool.not_true, if_neg Bool.false_ne_true]
  generalize w.keeper.setChannel (.integer channel) = saved at hsettings ⊢
  obtain ⟨keeper, flaw⟩ := saved
  cases flaw with
  | some flaw => exact ⟨rfl, hsettings⟩
  | none => exact ⟨rfl, hsettings⟩

/-- The watch after its time was set back. -/
theorem watcher_reset :
    (w.reset refusal).watcher.key = w.key ∧ (w.reset refusal).watcher.running = w.running ∧
      (w.reset refusal).watcher.keeper.settings =
        { w.keeper.settings with playlistTimestamp := .text Settings.firstTimestamp } := by
  have hsettings := settings_setTimestamp w.keeper (.text Settings.firstTimestamp)
  unfold reset
  generalize w.keeper.setTimestamp (.text Settings.firstTimestamp) = saved at hsettings ⊢
  obtain ⟨keeper, flaw⟩ := saved
  cases flaw with
  | some flaw => exact ⟨rfl, rfl, hsettings⟩
  | none => exact ⟨rfl, rfl, hsettings⟩

/-- Without a key the watch is not started. -/
theorem begin_of_not_hasKey (hkey : w.hasKey = false) :
    (w.begin channel refusal).watcher = w := by
  unfold begin
  rw [hkey]
  rfl

/-- Every command is of one of three kinds. -/
theorem manage_obeys :
    w.Obeys author channel action (w.manage author channel action refusal).watcher := by
  unfold manage
  cases hdeveloper : w.keeper.isDeveloper author with
  | error flaw => exact .nothing
  | ok developer =>
    cases developer with
    | false => exact .nothing
    | true =>
      dsimp only
      split
      · rename_i hinit
        cases hkey : w.hasKey with
        | false =>
          rw [begin_of_not_hasKey w channel refusal hkey]
          exact .nothing
        | true =>
          obtain ⟨hsame, hsettings⟩ := begin_of_hasKey w channel refusal hkey
          exact .init hdeveloper hinit hkey hsame hsettings
      split
      · rename_i hreset
        obtain ⟨hsame, hrunning, hsettings⟩ := watcher_reset w refusal
        exact .reset hdeveloper hreset hsame hrunning hsettings
      · exact .nothing

/-- A command asks the server for nothing. -/
theorem request_manage : (w.manage author channel action refusal).request = none := by
  unfold manage
  cases w.keeper.isDeveloper author with
  | error flaw => rfl
  | ok developer =>
    cases developer with
    | false => rfl
    | true =>
      dsimp only
      split
      · unfold begin
        split
        · rfl
        split
        · rfl
        · rfl
      split
      · unfold reset
        split
        · rfl
        · rfl
      · rfl

/-- The command of a user who is no developer does nothing. -/
theorem manage_of_not_isDeveloper (h : w.keeper.isDeveloper author ≠ .ok true) :
    (w.manage author channel action refusal).watcher = w ∧
      (w.manage author channel action refusal).reaction.messages = [] := by
  unfold manage
  cases hdeveloper : w.keeper.isDeveloper author with
  | error flaw => exact ⟨rfl, rfl⟩
  | ok developer =>
    cases developer with
    | false => exact ⟨rfl, rfl⟩
    | true => exact absurd hdeveloper h

end Commands

theorem hasKey_congr {w' : Watcher} (h : w'.key = w.key) : w'.hasKey = w.hasKey := by
  unfold hasKey
  rw [h]

/-- A search asks for nothing once it has its response. What it makes of the watch is nothing,
unless the response was good and the announcement was taken by the chat. -/
theorem complete_cases (w : Watcher) (search : OpenSearch) (o : Occasion) :
    (w.complete search o).request = none ∧
      ((w.complete search o).watcher = w ∨
        ∃ body finding text next, o.fetch = .response body ∧ o.refusal = none ∧
          w.prepare search.since o.now body = .ok (finding, text, next) ∧
          (w.complete search o).reaction.messages = [.post text] ∧
          (w.complete search o).watcher.key = w.key ∧
          (w.complete search o).watcher.running = w.running ∧
          (w.complete search o).watcher.keeper.settings =
            { w.keeper.settings with playlistTimestamp := .text next }) := by
  unfold complete
  simp only [tolerated_request, tolerated_watcher, tolerated_messages]
  cases hfetch : o.fetch with
  | unreachable => exact ⟨rfl, .inl rfl⟩
  | failed reason => exact ⟨rfl, .inl rfl⟩
  | response body =>
    dsimp only
    cases hprepare : w.prepare search.since o.now body with
    | error flaw => exact ⟨rfl, .inl rfl⟩
    | ok prepared =>
      obtain ⟨finding, text, next⟩ := prepared
      cases hrefusal : o.refusal with
      | some e => exact ⟨rfl, .inl rfl⟩
      | none =>
        obtain ⟨hmessages, _, hkey, hrunning, hsettings⟩ :=
          w.conclude_eq search.journal finding text next
        exact ⟨rfl, .inr ⟨body, finding, text, next, rfl, rfl, hprepare, hmessages, hkey, hrunning,
          hsettings⟩⟩

theorem watcher_setOut (w : Watcher) (visible : List Int) : (w.setOut visible).1.watcher = w := by
  unfold setOut
  dsimp only
  split
  · rfl
  · rfl
  split
  · rfl
  · rfl

/-- A watch is resumed with its settings and its key, and only if it has one. -/
theorem resume_cases (w : Watcher) :
    w.resume.watcher = w ∨ w.hasKey = true ∧ w.resume.watcher = { w with running := true } := by
  unfold resume
  split
  · exact .inl rfl
  rename_i hset
  split
  · exact .inl rfl
  · simp only [Bool.not_eq_true, Bool.not_eq_false', Bool.and_eq_true] at hset
    exact .inr ⟨hset.1, rfl⟩

theorem request_resume (w : Watcher) : w.resume.request = none := by
  unfold resume
  split
  · rfl
  split
  · rfl
  · rfl

end Watcher

/-! ## Runs -/

/-- A watch with the search under way. -/
structure Duty where
  /-- The watch. -/
  watcher : Watcher
  /-- The search that waits for the server or for the chat. -/
  search : Option OpenSearch

/-- What may happen to a watch on duty. -/
inductive Incident where
  /-- The bot starts. -/
  | startUp
  /-- A user gives the command. -/
  | command (author channel : Int) (action : Text) (refusal : Option ServiceError)
  /-- A day has passed. -/
  | tick (visible : List Int)
  /-- The search under way comes to its end. -/
  | complete (o : Occasion)
  /-- The search under way is broken off, whatever the bot has done by then. -/
  | breakOff (r : Reaction)
  /-- The watch is stopped. -/
  | stop

namespace Duty

/-- What may happen next, and what is reported of it. The watch ticks only while it is on and no
search is under way. -/
inductive Step : Duty → Incident → WatchReport → Duty → Prop where
  | startUp {s : Duty} :
      Step s .startUp s.watcher.resume { s with watcher := s.watcher.resume.watcher }
  | command {s : Duty} (author channel : Int) (action : Text) (refusal : Option ServiceError) :
      Step s (.command author channel action refusal)
        (s.watcher.manage author channel action refusal)
        { s with watcher := (s.watcher.manage author channel action refusal).watcher }
  | tick {s : Duty} (visible : List Int) : s.watcher.running = true → s.search = none →
      Step s (.tick visible) (s.watcher.setOut visible).1
        ⟨(s.watcher.setOut visible).1.watcher, (s.watcher.setOut visible).2⟩
  | complete {s : Duty} {search : OpenSearch} (o : Occasion) : s.search = some search →
      Step s (.complete o) (s.watcher.complete search o)
        ⟨(s.watcher.complete search o).watcher, none⟩
  | breakOff {s : Duty} {search : OpenSearch} (r : Reaction) : s.search = some search →
      Step s (.breakOff r) { watcher := s.watcher, reaction := r } ⟨s.watcher, none⟩
  | stop {s : Duty} : Step s .stop s.watcher.stop ⟨s.watcher.stop.watcher, none⟩

/-- What may happen, incident by incident. -/
inductive Run (s : Duty) : List Incident → Duty → Prop where
  | refl : Run s [] s
  | snoc {incidents : List Incident} {s' s'' : Duty} {e : Incident} {report : WatchReport} :
      Run s incidents s' → Step s' e report s'' → Run s (incidents ++ [e]) s''

/-- A tick of the watch that nothing comes between is such a run. -/
theorem run_tick {s : Duty} (hrunning : s.watcher.running = true) (hresting : s.search = none)
    (visible : List Int) (o : Occasion) :
    ∃ incidents, (incidents = [.tick visible] ∨ incidents = [.tick visible, .complete o]) ∧
      Run s incidents ⟨(s.watcher.tick visible o).watcher, none⟩ := by
  have htick := s.watcher.tick_eq visible o
  have hwatcher := s.watcher.watcher_setOut visible
  have hstep := Step.tick visible hrunning hresting
  generalize s.watcher.setOut visible = halves at htick hwatcher hstep
  obtain ⟨report, _ | search⟩ := halves
  · refine ⟨[.tick visible], .inl rfl, ?_⟩
    rw [htick]
    exact .snoc .refl hstep
  · refine ⟨[.tick visible, .complete o], .inr rfl, ?_⟩
    rw [htick]
    have hcomplete : Step ⟨report.watcher, some search⟩ (.complete o) _ _ := .complete o rfl
    dsimp only at hwatcher
    rw [hwatcher] at hstep hcomplete
    exact .snoc (.snoc .refl hstep) hcomplete

/-- The settings in use. -/
def settings (s : Duty) : Settings :=
  s.watcher.keeper.settings

/-- What moves the settings, and where to. -/
inductive Moves (s : Duty) : Incident → WatchReport → Settings → Prop where
  | nothing {e : Incident} {report : WatchReport} : Moves s e report s.settings
  | init {author channel : Int} {action : Text} {refusal : Option ServiceError}
      {report : WatchReport} : s.watcher.keeper.isDeveloper author = .ok true →
      action.map CodePoint.asciiLower = Text.ofString "init" → s.watcher.hasKey = true →
      Moves s (.command author channel action refusal) report
        { s.settings with announceChannel := .integer channel }
  | reset {author channel : Int} {action : Text} {refusal : Option ServiceError}
      {report : WatchReport} : s.watcher.keeper.isDeveloper author = .ok true →
      action.map CodePoint.asciiLower = Text.ofString "reset" →
      Moves s (.command author channel action refusal) report
        { s.settings with playlistTimestamp := .text Settings.firstTimestamp }
  | announced {search : OpenSearch} {o : Occasion} {body : Json} {finding : Finding}
      {text next : Text} {report : WatchReport} : s.search = some search →
      o.fetch = .response body → o.refusal = none →
      s.watcher.prepare search.since o.now body = .ok (finding, text, next) →
      report.reaction.messages = [.post text] →
      Moves s (.complete o) report { s.settings with playlistTimestamp := .text next }

variable {s s' : Duty} {e : Incident} {report : WatchReport}

theorem Moves.of_watcher_eq (h : s'.watcher = s.watcher) : Moves s e report s'.settings := by
  have hsame : s'.settings = s.settings := congrArg (fun w => w.keeper.settings) h
  rw [hsame]
  exact .nothing

theorem Step.moves (h : Step s e report s') : Moves s e report s'.settings := by
  cases h with
  | startUp =>
    rcases s.watcher.resume_cases with hsame | ⟨_, hrunning⟩
    · exact .of_watcher_eq hsame
    · rw [settings, hrunning]
      exact .nothing
  | command author channel action refusal =>
    have hobeys := s.watcher.manage_obeys author channel action refusal
    generalize (s.watcher.manage author channel action refusal).watcher = w' at hobeys ⊢
    cases hobeys with
    | nothing => exact .nothing
    | init hdeveloper hinit hkey _ hsettings =>
      rw [settings, hsettings]
      exact .init hdeveloper hinit hkey
    | reset hdeveloper hreset _ _ hsettings =>
      rw [settings, hsettings]
      exact .reset hdeveloper hreset
  | tick visible => exact .of_watcher_eq (s.watcher.watcher_setOut visible)
  | @complete search o hsearch =>
    obtain ⟨_, hsame | ⟨body, finding, text, next, hfetch, hrefusal, hprepare, hmessages, _, _,
      hsettings⟩⟩ := s.watcher.complete_cases search o
    · exact .of_watcher_eq hsame
    · rw [settings, hsettings]
      exact .announced hsearch hfetch hrefusal hprepare hmessages
  | breakOff | stop => exact .nothing

/-- Nothing is watched: there is no key, and neither is the watch on nor a search under way. -/
structure IsOff (s : Duty) : Prop where
  hasKey : s.watcher.hasKey = false
  running : s.watcher.running = false
  search : s.search = none

/-- Without a key the watch stays off, and nothing is requested. -/
theorem IsOff.step (hs : s.IsOff) (h : Step s e report s') :
    s'.IsOff ∧ report.request = none := by
  cases h with
  | startUp =>
    rcases s.watcher.resume_cases with hsame | ⟨hkey, _⟩
    · exact ⟨⟨by rw [hsame]; exact hs.hasKey, by rw [hsame]; exact hs.running, hs.search⟩,
        s.watcher.request_resume⟩
    · rw [hs.hasKey] at hkey
      cases hkey
  | command author channel action refusal =>
    refine ⟨?_, s.watcher.request_manage author channel action refusal⟩
    have hobeys := s.watcher.manage_obeys author channel action refusal
    generalize (s.watcher.manage author channel action refusal).watcher = w' at hobeys ⊢
    cases hobeys with
    | nothing => exact ⟨hs.hasKey, hs.running, hs.search⟩
    | init _ _ hkey =>
      rw [hs.hasKey] at hkey
      cases hkey
    | reset _ _ hsame hrunning =>
      exact ⟨(Watcher.hasKey_congr hsame).trans hs.hasKey, hrunning.trans hs.running, hs.search⟩
  | tick visible hrunning =>
    rw [hs.running] at hrunning
    cases hrunning
  | complete o hsearch =>
    rw [hs.search] at hsearch
    cases hsearch
  | breakOff => exact ⟨⟨hs.hasKey, hs.running, rfl⟩, rfl⟩
  | stop => exact ⟨⟨hs.hasKey, rfl, rfl⟩, rfl⟩

theorem IsOff.run (hs : s.IsOff) {incidents : List Incident} (hrun : Run s incidents s') :
    s'.IsOff := by
  induction hrun with
  | refl => exact hs
  | snoc _ hstep ih => exact (ih.step hstep).1

/-- **What moves the watch.** Let a watch be off at first, and anything happen to it. The channel
of the announcements is changed only by a developer's `init` with a key at hand, and the time of
the next search only by a developer's `reset` and by a search whose response was good and whose
announcement was sent. The command of a user who is no developer changes nothing and sends nothing.
Without a key the watch is never on, and the server is never asked. -/
theorem moved_by_authority {s₀ : Duty} (hoff : s₀.watcher.running = false)
    (hresting : s₀.search = none) {incidents : List Incident} (hrun : Run s₀ incidents s)
    (hstep : Step s e report s') :
    (s'.settings.announceChannel ≠ s.settings.announceChannel →
      ∃ author channel action refusal, e = .command author channel action refusal ∧
        s.watcher.keeper.isDeveloper author = .ok true ∧
        action.map CodePoint.asciiLower = Text.ofString "init" ∧ s.watcher.hasKey = true) ∧
    (s'.settings.playlistTimestamp ≠ s.settings.playlistTimestamp →
      (∃ author channel action refusal, e = .command author channel action refusal ∧
        s.watcher.keeper.isDeveloper author = .ok true ∧
        action.map CodePoint.asciiLower = Text.ofString "reset") ∨
      ∃ search o body finding text next, e = .complete o ∧ s.search = some search ∧
        o.fetch = .response body ∧ o.refusal = none ∧
        s.watcher.prepare search.since o.now body = .ok (finding, text, next) ∧
        report.reaction.messages = [.post text]) ∧
    (∀ author channel action refusal, e = .command author channel action refusal →
      s.watcher.keeper.isDeveloper author ≠ .ok true →
        s' = s ∧ report.reaction.messages = []) ∧
    (s₀.watcher.hasKey = false →
      s.watcher.running = false ∧ s'.watcher.running = false ∧ report.request = none) := by
  refine ⟨?_, ?_, ?_, ?_⟩
  · intro hmoved
    have hmoves := hstep.moves
    generalize s'.settings = t at hmoves hmoved
    cases hmoves with
    | init hdeveloper hinit hkey => exact ⟨_, _, _, _, rfl, hdeveloper, hinit, hkey⟩
    | nothing | reset | announced => exact absurd rfl hmoved
  · intro hmoved
    have hmoves := hstep.moves
    generalize s'.settings = t at hmoves hmoved
    cases hmoves with
    | reset hdeveloper hreset => exact .inl ⟨_, _, _, _, rfl, hdeveloper, hreset⟩
    | announced hsearch hfetch hrefusal hprepare hmessages =>
      exact .inr ⟨_, _, _, _, _, _, rfl, hsearch, hfetch, hrefusal, hprepare, hmessages⟩
    | nothing | init => exact absurd rfl hmoved
  · rintro author channel action refusal rfl hstranger
    cases hstep with
    | command =>
      obtain ⟨hsame, hsilent⟩ :=
        s.watcher.manage_of_not_isDeveloper author channel action refusal hstranger
      exact ⟨by rw [hsame], hsilent⟩
  · intro hkey
    have hs : s.IsOff := IsOff.run ⟨hkey, hoff, hresting⟩ hrun
    obtain ⟨hs', hrequest⟩ := hs.step hstep
    exact ⟨hs.running, hs'.running, hrequest⟩

/-- A watch with a key that one developer manages, before it is started. -/
def beforeInit : Duty where
  watcher :=
    { key := some "key"
      keeper := ⟨{ Settings.standard with
        developers := .array [.integer 7]
        playlistTimestamp := .text "2024-01-01T00:00:10Z" }, [], []⟩
      running := false }
  search := none

/-- The watch after the developer has started it. -/
def afterInit : Duty :=
  ⟨(beforeInit.watcher.manage 7 3 "Init" none).watcher, none⟩

/-- The watch after the developer has set its time back. -/
def afterReset : Duty :=
  ⟨(afterInit.watcher.manage 7 3 "RESET" none).watcher, none⟩

/-- The watch while its search waits. -/
def afterTick : Duty :=
  ⟨afterReset.watcher, some ⟨Watcher.firstMoment, []⟩⟩

/-- The watch after the search has come to its end. -/
def afterSearch (o : Occasion) : Duty :=
  ⟨(afterTick.watcher.complete ⟨Watcher.firstMoment, []⟩ o).watcher, none⟩

/-- A developer starts the watch and sets its time back, and a search that announces a video moves
the time on. -/
theorem moved_on_duty :
    beforeInit.watcher.running = false ∧ beforeInit.search = none ∧
      beforeInit.Run [.command 7 3 "Init" none, .command 7 3 "RESET" none, .tick [3]] afterTick ∧
      beforeInit.settings.announceChannel = .null ∧
      Settings.equalsInteger 3 afterInit.settings.announceChannel = true ∧
      afterInit.watcher.start? = some (newYear 10) ∧
      afterReset.watcher.start? = some Watcher.firstMoment ∧
      (afterSearch (Watch.newYearOccasion 10)).watcher.start? = some (newYear 5) ∧
      ∃ report, afterTick.Step (.complete (Watch.newYearOccasion 10)) report
          (afterSearch (Watch.newYearOccasion 10)) ∧
        ∃ text, report.reaction.messages = [.post text] := by
  have hinit : beforeInit.Step (.command 7 3 "Init" none) _ afterInit := .command 7 3 "Init" none
  have hreset : afterInit.Step (.command 7 3 "RESET" none) _ afterReset :=
    .command 7 3 "RESET" none
  have hrunning : afterReset.watcher.running = true := by decide +kernel
  have hsearch : (afterReset.watcher.setOut [3]).2 = some ⟨Watcher.firstMoment, []⟩ := by
    decide +kernel
  have htick : afterReset.Step (.tick [3]) (afterReset.watcher.setOut [3]).1 afterTick := by
    have hstep := Step.tick (s := afterReset) [3] hrunning rfl
    rwa [Watcher.watcher_setOut, hsearch] at hstep
  have hrun : beforeInit.Run [.command 7 3 "Init" none, .command 7 3 "RESET" none, .tick [3]]
      afterTick :=
    .snoc (.snoc (.snoc .refl hinit) hreset) htick
  have hstep : afterTick.Step (.complete (Watch.newYearOccasion 10)) _
      (afterSearch (Watch.newYearOccasion 10)) :=
    @Step.complete afterTick ⟨Watcher.firstMoment, []⟩ (Watch.newYearOccasion 10) rfl
  have hbefore : afterTick.watcher.start? = some Watcher.firstMoment := by decide +kernel
  have hafter : (afterSearch (Watch.newYearOccasion 10)).watcher.start? = some (newYear 5) := by
    decide +kernel
  have hmoved : (afterSearch (Watch.newYearOccasion 10)).settings.playlistTimestamp ≠
      afterTick.settings.playlistTimestamp := by
    intro hsame
    rw [settings, settings] at hsame
    rw [Watcher.start?, hsame, ← Watcher.start?, hbefore] at hafter
    exact absurd hafter (by decide)
  obtain ⟨-, htime, -⟩ := moved_by_authority rfl rfl hrun hstep
  refine ⟨rfl, rfl, hrun, rfl, by decide +kernel, by decide +kernel, by decide +kernel, hafter, _,
    hstep, ?_⟩
  rcases htime hmoved with ⟨_, _, _, _, hcommand, -⟩ | hannounced
  · cases hcommand
  · obtain ⟨_, _, _, _, text, _, -, -, -, -, -, hmessages⟩ := hannounced
    exact ⟨text, hmessages⟩

/-- A watch without a key that one developer manages. -/
def withoutKey : Duty where
  watcher :=
    { key := none
      keeper := ⟨{ Settings.standard with developers := .array [.integer 7] }, [], []⟩
      running := false }
  search := none

/-- Without a key neither the start nor the command of the developer leaves a trace. -/
theorem unmoved_without_key :
    ∃ report, withoutKey.Run [.startUp, .command 7 3 "INIT" none] withoutKey ∧
      withoutKey.Step (.command 8 3 "reset" none) report withoutKey ∧
      withoutKey.watcher.keeper.isDeveloper 8 ≠ .ok true ∧ withoutKey.watcher.hasKey = false ∧
      report.reaction.messages = [] ∧ report.request = none := by
  have hstart : withoutKey.Step .startUp withoutKey.watcher.resume withoutKey := .startUp
  have hinit : withoutKey.Step (.command 7 3 "INIT" none)
      (withoutKey.watcher.manage 7 3 "INIT" none) withoutKey := .command 7 3 "INIT" none
  have hrun : withoutKey.Run [.startUp, .command 7 3 "INIT" none] withoutKey :=
    .snoc (.snoc .refl hstart) hinit
  have hstep : withoutKey.Step (.command 8 3 "reset" none)
      (withoutKey.watcher.manage 8 3 "reset" none) withoutKey := .command 8 3 "reset" none
  have hstranger : withoutKey.watcher.keeper.isDeveloper 8 ≠ .ok true := nofun
  have hoff : withoutKey.IsOff := IsOff.run ⟨rfl, rfl, rfl⟩ hrun
  obtain ⟨-, hsilent⟩ :=
    withoutKey.watcher.manage_of_not_isDeveloper 8 3 "reset" none hstranger
  exact ⟨_, hrun, hstep, hstranger, rfl, hsilent, (hoff.step hstep).2⟩

end Duty

end DiceBot
