import DiceBot.Proofs.Playlist.Authority
import DiceBot.Proofs.Playlist.Dates

/-!
# Searches that fail

A search may fail at each of its steps: at the time from which it starts, at the server, at the
response, and at the chat. Wherever that is, the watch and its file stay as they were, and nothing
is sent. Once the response has been read nothing is left that could fail before the announcement is
sent: the videos that were found have times that can be compared with one another.

## Main definitions

* `WatchReport.LeavesAlone`: a report of nothing said and nothing changed
* `Watcher.Fails`: a search fails at one of its steps
* `Watcher.Posts`: a search sends its announcement, and the time of the next search is set

## Main results

* `Finding.exists_announcement_and_nextSince`: what was found can be announced
* `Watcher.fails_or_posts`: there is no third way
* `Watcher.stays_unless_posted`: a search that fails leaves the watch where it was
-/

namespace DiceBot

/-- Nothing was said, and the watch and its settings and their file are what they were. -/
structure WatchReport.LeavesAlone (r : WatchReport) (w : Watcher) : Prop where
  watcher : r.watcher = w
  announced : r.announced = false
  messages : r.reaction.messages = []

/-- What was found in a response can be announced, and tells where the next search starts. -/
theorem Finding.exists_announcement_and_nextSince {since : Timestamp} {body : Json} {f : Finding}
    (h : ofResponse since body = .ok f) (playlist : Json) (now : Timestamp) :
    (∃ text, f.announcement since playlist = .ok text) ∧ ∃ next, f.nextSince now = .ok next :=
  ⟨exists_announcement (isDated_of_ofResponse h) since playlist,
    exists_nextSince (isDated_of_ofResponse h) now⟩

namespace Watcher

/-- A search fails at one of its steps, and is broken off unless the server has said why. -/
inductive Fails (w : Watcher) (o : Occasion) : Option Failure → Prop where
  | unstarted : w.start? = none → Fails w o (some (.playlist .notText))
  | unanswered {since : Timestamp} {reason : Text} : w.start? = some since →
      o.fetch = .failed reason → Fails w o none
  | unreachable {since : Timestamp} : w.start? = some since → o.fetch = .unreachable →
      Fails w o (some .unreachable)
  | unusable {since : Timestamp} {body : Json} {flaw : Playlist.Flaw} : w.start? = some since →
      o.fetch = .response body → Finding.ofResponse since body = .error flaw →
      Fails w o (some (.playlist flaw))
  | unsent {since : Timestamp} {body : Json} {f : Finding} {e : ServiceError} :
      w.start? = some since → o.fetch = .response body → Finding.ofResponse since body = .ok f →
      o.refusal = some e → Fails w o (some (.service e))

/-- A search sends its announcement, and the time of the next search is set. -/
def Posts (w : Watcher) (o : Occasion) : Prop :=
  ∃ since body f text next, w.start? = some since ∧ o.fetch = .response body ∧
    Finding.ofResponse since body = .ok f ∧ o.refusal = none ∧
    f.announcement since w.keeper.settings.playlistName = .ok text ∧
    f.nextSince o.now = .ok next ∧ (w.announce o).reaction.messages = [.post text] ∧
    (w.announce o).watcher = { w with keeper := (w.keeper.setTimestamp (.text next)).1 }

variable {w : Watcher} {o : Occasion} {since : Timestamp} {body : Json}

theorem exists_text_of_start? (h : w.start? = some since) :
    ∃ stored, w.keeper.settings.playlistTimestamp = .text stored ∧
      (Watcher.since stored).1 = since := by
  unfold start? at h
  split at h
  · rename_i stored hstored
    exact ⟨stored, hstored, Option.some.inj h⟩
  · cases h

theorem prepare_of_ofResponse_error {flaw : Playlist.Flaw}
    (h : Finding.ofResponse since body = .error flaw) (now : Timestamp) :
    w.prepare since now body = .error flaw :=
  bind_eq_error_iff.mpr (.inl h)

/-- Once the response has been read, everything is ready. -/
theorem exists_prepare_eq_ok {f : Finding} (h : Finding.ofResponse since body = .ok f)
    (now : Timestamp) :
    ∃ text next, f.announcement since w.keeper.settings.playlistName = .ok text ∧
      f.nextSince now = .ok next ∧ w.prepare since now body = .ok (f, text, next) := by
  obtain ⟨⟨text, htext⟩, next, hnext⟩ :=
    Finding.exists_announcement_and_nextSince h w.keeper.settings.playlistName now
  exact ⟨text, next, htext, hnext, bind_eq_ok_iff.mpr ⟨_, h, bind_eq_ok_iff.mpr ⟨_, htext,
    bind_eq_ok_iff.mpr ⟨_, hnext, rfl⟩⟩⟩⟩

/-- A search that fails leaves the watch alone. -/
theorem Fails.leavesAlone {failure : Option Failure} (h : w.Fails o failure) :
    (w.announce o).LeavesAlone w ∧ (w.announce o).reaction.failure = failure := by
  cases h with
  | unstarted hstart =>
    unfold announce
    split
    · rename_i stored hstored
      cases (start?_of_text hstored).symm.trans hstart
    · exact ⟨⟨rfl, rfl, rfl⟩, rfl⟩
  | unanswered hstart hfetch | unreachable hstart hfetch =>
    obtain ⟨stored, hstored, rfl⟩ := exists_text_of_start? hstart
    refine ⟨⟨?_, ?_, ?_⟩, ?_⟩ <;>
      simp only [announce, Reaction.fail, hstored, hfetch]
  | unusable hstart hfetch hflaw =>
    obtain ⟨stored, hstored, rfl⟩ := exists_text_of_start? hstart
    have hprepare := prepare_of_ofResponse_error (w := w) hflaw o.now
    refine ⟨⟨?_, ?_, ?_⟩, ?_⟩ <;>
      simp only [announce, Reaction.fail, hstored, hfetch, hprepare]
  | unsent hstart hfetch hf hrefusal =>
    obtain ⟨stored, hstored, rfl⟩ := exists_text_of_start? hstart
    obtain ⟨text, next, -, -, hprepare⟩ := exists_prepare_eq_ok (w := w) hf o.now
    refine ⟨⟨?_, ?_, ?_⟩, ?_⟩ <;>
      simp only [announce, Reaction.fail, hstored, hfetch, hprepare, hrefusal]

/-- What follows an announcement sets the time of the next search, and nothing else. -/
theorem watcher_conclude (w : Watcher) (journal : List Entry) (f : Finding) (text next : Text) :
    (w.conclude journal f text next).watcher =
      { w with keeper := (w.keeper.setTimestamp (.text next)).1 } := by
  unfold conclude
  split
  · rename_i hsaved
    rw [hsaved]
  · rename_i hsaved
    rw [hsaved]

/-- A search fails at one of its steps, or it is posted. -/
theorem fails_or_posts (w : Watcher) (o : Occasion) :
    (∃ failure, w.Fails o failure) ∨ w.Posts o := by
  cases hstart : w.start? with
  | none => exact .inl ⟨_, .unstarted hstart⟩
  | some since =>
    cases hfetch : o.fetch with
    | failed reason => exact .inl ⟨_, .unanswered hstart hfetch⟩
    | unreachable => exact .inl ⟨_, .unreachable hstart hfetch⟩
    | response body =>
      cases hf : Finding.ofResponse since body with
      | error flaw => exact .inl ⟨_, .unusable hstart hfetch hf⟩
      | ok f =>
        cases hrefusal : o.refusal with
        | some e => exact .inl ⟨_, .unsent hstart hfetch hf hrefusal⟩
        | none =>
          obtain ⟨text, next, htext, hnext, hprepare⟩ := exists_prepare_eq_ok (w := w) hf o.now
          obtain ⟨stored, hstored, rfl⟩ := exists_text_of_start? hstart
          refine .inr ⟨_, body, f, text, next, hstart, hfetch, hf, hrefusal, htext, hnext, ?_⟩
          rw [announce_of_prepare_ok hstored hfetch hrefusal hprepare]
          exact ⟨(w.conclude_eq _ f text next).1, w.watcher_conclude _ f text next⟩

theorem tolerated_leavesAlone {r : WatchReport} (h : r.LeavesAlone w) :
    (tolerated r).LeavesAlone w := by
  refine ⟨(tolerated_watcher r).trans h.watcher, ?_, (tolerated_messages r).trans h.messages⟩
  unfold tolerated
  split
  · exact h.announced
  · exact h.announced

/-- What happens once a day leaves the watch alone if the search does. -/
theorem tick_leavesAlone (visible : List Int) (h : (w.announce o).LeavesAlone w) :
    (w.tick visible o).LeavesAlone w := by
  unfold tick
  dsimp only
  split
  · exact ⟨rfl, rfl, rfl⟩
  · exact tolerated_leavesAlone h
  · exact ⟨rfl, rfl, rfl⟩

/-- A search that fails leaves the watch where it was, the settings in use and their file, whether
it is one by itself or that of a day; if the server has said why, the search is over without a
failure. What was found in a response can always be announced, and the time of the next search can
be told, so that a search which does not fail at one of the steps is posted. -/
theorem stays_unless_posted (w : Watcher) (o : Occasion) :
    (∀ failure, w.Fails o failure → (w.announce o).LeavesAlone w ∧
      (w.announce o).reaction.failure = failure ∧
      ∀ visible, (w.tick visible o).LeavesAlone w) ∧
    (∀ since body f, Finding.ofResponse since body = .ok f → ∀ playlist now,
      (∃ text, f.announcement since playlist = .ok text) ∧
        ∃ next, f.nextSince now = .ok next) ∧
    ((∃ failure, w.Fails o failure) ∨ w.Posts o) := by
  refine ⟨fun failure h => ?_, fun since body f hf => ?_, w.fails_or_posts o⟩
  · obtain ⟨halone, hfailure⟩ := h.leavesAlone
    exact ⟨halone, hfailure, fun visible => tick_leavesAlone visible halone⟩
  · exact Finding.exists_announcement_and_nextSince hf

end Watcher

end DiceBot
