import DiceBot.Playlist.Watcher
import DiceBot.Proofs.Checked

/-!
# Successful searches

A search that was announced has read its response, has posted the announcement of what it found,
and has kept the time from which the next search starts; nothing else of the settings has changed.

## Main definitions

* `Watcher.start?`: the time from which the next search starts

## Main results

* `Watcher.conclude_eq`: what follows a search
* `Watcher.exists_of_announced`: what a successful search does
-/

namespace DiceBot

namespace Watcher

variable {w : Watcher} {o : Occasion} {stored : Text}

/-- The time from which the next search starts. It stands in the settings as a text, and if that is
no timestamp, the time of the first search takes its place. -/
def start? (w : Watcher) : Option Timestamp :=
  match w.keeper.settings.playlistTimestamp with
  | .text stored => some (since stored).1
  | _ => none

theorem start?_of_text (h : w.keeper.settings.playlistTimestamp = .text stored) :
    w.start? = some (since stored).1 := by
  rw [start?, h]

theorem since_of_ofText? {t : Timestamp} (h : Timestamp.ofText? stored = some t) :
    since stored = (t, []) := by
  rw [since, h]

theorem settings_setTimestamp (k : Keeper) (value : Json) :
    (k.setTimestamp value).1.settings = { k.settings with playlistTimestamp := value } :=
  rfl

/-- What follows a search: its announcement has been posted, and the time of the next search is in
use, whether or not it could be saved. -/
theorem conclude_eq (w : Watcher) (journal : List Entry) (f : Finding) (text next : Text) :
    (w.conclude journal f text next).reaction.messages = [.post text] ∧
      (w.conclude journal f text next).request = some w.request ∧
      (w.conclude journal f text next).watcher.key = w.key ∧
      (w.conclude journal f text next).watcher.running = w.running ∧
      (w.conclude journal f text next).watcher.keeper.settings =
        { w.keeper.settings with playlistTimestamp := .text next } := by
  have hsettings := settings_setTimestamp w.keeper (.text next)
  unfold conclude
  generalize w.keeper.setTimestamp (.text next) = saved at hsettings ⊢
  obtain ⟨keeper, flaw⟩ := saved
  cases flaw with
  | some flaw => exact ⟨rfl, rfl, rfl, rfl, hsettings⟩
  | none => exact ⟨rfl, rfl, rfl, rfl, hsettings⟩

/-- What a successful search does. -/
theorem exists_of_announced (h : (w.announce o).announced = true) :
    ∃ since body f text next, w.start? = some since ∧ o.fetch = .response body ∧
      Finding.ofResponse since body = .ok f ∧
      f.announcement since w.keeper.settings.playlistName = .ok text ∧
      f.nextSince o.now = .ok next ∧
      (w.announce o).reaction.messages = [.post text] ∧
      (w.announce o).watcher.keeper.settings =
        { w.keeper.settings with playlistTimestamp := .text next } := by
  unfold announce at h ⊢
  split at h
  · rename_i stored hstored
    dsimp only at h ⊢
    split at h
    · cases h
    · cases h
    rename_i body hfetch
    split at h
    · cases h
    rename_i f text next hprepare
    split at h
    · cases h
    obtain ⟨hmessages, _, _, _, hsettings⟩ := w.conclude_eq (since stored).2 f text next
    obtain ⟨f', hf, hprepare⟩ := bind_eq_ok_iff.mp hprepare
    obtain ⟨text', htext, hprepare⟩ := bind_eq_ok_iff.mp hprepare
    obtain ⟨next', hnext, hprepare⟩ := bind_eq_ok_iff.mp hprepare
    cases hprepare
    exact ⟨_, body, f, text, next, start?_of_text hstored, hfetch, hf, htext, hnext, hmessages,
      hsettings⟩
  · cases h

end Watcher

end DiceBot
