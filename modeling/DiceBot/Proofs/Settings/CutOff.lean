import DiceBot.Proofs.Json.CutOff
import DiceBot.Proofs.Settings.File

/-!
# Settings whose saving failed

The file is emptied before it is known that the new text can be written to its end. So a call that
fails leaves in the file the pieces that came before the failure, whatever the file held before, and
that is never a configuration: the next start refuses it.

## Main definitions

* `Keeper.SaveCall`: a call that saves
* `Settings.StopsBehind`: the pieces that are written of some settings before a flaw

## Main results

* `Settings.stopsBehind_of_written`: what is in the file after a flaw
* `Settings.StopsBehind.readFile`: the pieces before a flaw are no configuration
* `Keeper.ofFile_of_saved_eq_some`: a call that fails destroys the configuration
-/

namespace DiceBot

/-! ## Where the writing stops -/

/-- The flaw of a piece that cannot be written. -/
def Keeper.pieceFlaw? : Except Fault Text → Option Settings.Flaw
  | .ok piece => if piece.encodable then none else some .unencodable
  | .error _ => some .numeralTooLong

/-- The writing of some settings comes to a flaw behind these pieces. -/
structure Settings.StopsBehind (s : Settings) (front : List Text) (flaw : Settings.Flaw) :
    Prop where
  stops : ∃ missing back, Json.chunks 0 [] s.toJson = front.map .ok ++ missing :: back ∧
    Keeper.pieceFlaw? missing = some flaw
  encodable : ∀ piece ∈ front, piece.encodable

namespace Keeper

/-- What is written before a flaw are the pieces in front of the one that has it. -/
theorem write_eq_some {pieces : List (Except Fault Text)} {t : Text} {flaw : Settings.Flaw}
    (h : write pieces = (t, some flaw)) :
    ∃ (front : List Text) (missing : Except Fault Text) (back : List (Except Fault Text)),
      pieces = front.map .ok ++ missing :: back ∧ pieceFlaw? missing = some flaw ∧
        (∀ piece ∈ front, piece.encodable) ∧ t = front.flatten := by
  induction pieces generalizing t with
  | nil => cases h
  | cons piece rest ih =>
    cases piece with
    | error fault =>
      cases h
      exact ⟨[], _, rest, rfl, rfl, nofun, rfl⟩
    | ok piece =>
      rw [write] at h
      split at h
      · rename_i hpiece
        cases hrest : write rest with
        | mk more result =>
          rw [hrest] at h
          cases h
          obtain ⟨front, missing, back, rfl, hflaw, hfront, rfl⟩ := ih hrest
          exact ⟨piece :: front, missing, back, rfl, hflaw,
            List.forall_mem_cons.mpr ⟨hpiece, hfront⟩, rfl⟩
      · rename_i hpiece
        cases h
        exact ⟨[], _, rest, rfl, if_neg hpiece, nofun, rfl⟩

end Keeper

namespace Settings

variable {s : Settings} {front : List Text} {flaw : Settings.Flaw}

/-- What is in the file after a flaw. -/
theorem stopsBehind_of_written {t : Text} (h : Keeper.written s = (t, some flaw)) :
    ∃ front, s.StopsBehind front flaw ∧ t = front.flatten := by
  obtain ⟨front, missing, back, hchunks, hflaw, hfront, ht⟩ := Keeper.write_eq_some h
  exact ⟨front, ⟨⟨missing, back, hchunks, hflaw⟩, hfront⟩, ht⟩

/-- The pieces before a flaw are no configuration. -/
theorem StopsBehind.readFile (h : s.StopsBehind front flaw) :
    Keeper.readFile front.flatten = .error .malformed := by
  obtain ⟨missing, back, hchunks, -⟩ := h.stops
  have hbreak : Json.BreaksOff (front.map .ok) (Json.chunks 0 [] s.toJson) :=
    ⟨⟨missing, back, hchunks⟩, List.forall_mem_map.mpr fun piece _ => ⟨piece, rfl⟩⟩
  have htext : (front.map Except.ok).flatMap Json.chunkText = front.flatten := by
    rw [List.flatMap_map]
    exact List.flatMap_id'
  have hread := Json.read_of_breaksOff hbreak
  rw [htext] at hread
  rw [Keeper.readFile, hread]

end Settings

namespace Keeper

/-! ## Calls that save -/

/-- A call that saves. -/
inductive SaveCall where
  /-- The time after which a video is new is changed and saved. -/
  | timestamp (value : Json)
  /-- The channel in which new videos are announced is changed and saved. -/
  | channel (value : Json)
  /-- The settings in use are saved as they are. -/
  | unchanged

/-- The settings that a call saves, given those in use. -/
def SaveCall.settings (c : SaveCall) (s : Settings) : Settings :=
  match c with
  | timestamp value => { s with playlistTimestamp := value }
  | channel value => { s with announceChannel := value }
  | unchanged => s

/-- What a call that saves leaves, and the flaw at which it stops. -/
def saved (k : Keeper) : SaveCall → Keeper × Option Settings.Flaw
  | .timestamp value => k.setTimestamp value
  | .channel value => k.setChannel value
  | .unchanged => k.save

variable {k k' : Keeper} {c : SaveCall}

theorem saved_eq_replace (k : Keeper) (c : SaveCall) :
    k.saved c = k.replace (c.settings k.settings) := by
  cases c <;> rfl

/-- Whether a call fails or not, its settings are in use, and in the file is what was written of
them. -/
theorem of_saved_eq {result : Option Settings.Flaw} (h : k.saved c = (k', result)) :
    k'.settings = c.settings k.settings ∧ k'.extraChannels = k.extraChannels ∧
      written k'.settings = (k'.file, result) := by
  rw [saved_eq_replace] at h
  cases h
  exact ⟨rfl, rfl, rfl⟩

/-- **A call that fails destroys the configuration.** The file holds the pieces before the flaw, and
the next start refuses it, whatever the environment allows. So the file is as it was only if it was
broken in the very same way before; a configuration that could be loaded is lost. -/
theorem ofFile_of_saved_eq_some {flaw : Settings.Flaw} (h : k.saved c = (k', some flaw)) :
    ∃ front, (c.settings k.settings).StopsBehind front flaw ∧ k'.file = front.flatten ∧
      (k'.file = k.file ↔ k.file = front.flatten) ∧
      (∀ channels, ofFile (some k'.file) channels = .error .malformed) ∧
      ∀ channels before, ofFile (some k.file) channels = .ok before → k'.file ≠ k.file := by
  obtain ⟨hsettings, -, hwritten⟩ := of_saved_eq h
  obtain ⟨front, hstops, hfile⟩ := Settings.stopsBehind_of_written hwritten
  have hrefused (channels : Text) : ofFile (some k'.file) channels = .error .malformed := by
    rw [hfile, ofFile, hstops.readFile]
    rfl
  rw [hsettings] at hstops
  refine ⟨front, hstops, hfile, ?_, hrefused, fun channels before hbefore hsame => ?_⟩
  · rw [hfile]
    exact eq_comm
  · rw [← hsame, hrefused channels] at hbefore
    cases hbefore

/-- A name in its escaped form can be loaded and not be saved, so that the file is lost with nothing
changed. -/
theorem file_ne_of_escapedName :
    let text : Text := "\x7b\"global\": \x7b\"playlist_name\": \"\\ud800\"\x7d\x7d"
    ∃ k, ofFile (some text) [] = .ok k ∧ (k.saved .unchanged).2 = some .unencodable ∧
      (k.saved .unchanged).1.file ≠ text := by
  intro text
  have hrun : (ofFile (some text) []).toOption.map (·.save.2) = some (some .unencodable) := by
    decide +kernel
  cases hload : ofFile (some text) [] with
  | error flaw =>
    rw [hload] at hrun
    cases hrun
  | ok k =>
    rw [hload] at hrun
    have hflaw : (k.saved .unchanged).2 = some .unencodable := Option.some.inj hrun
    have hfile : k.file = text := (of_ofFile_some hload).2
    obtain ⟨-, -, -, -, -, hlost⟩ := ofFile_of_saved_eq_some (Prod.ext rfl hflaw)
    rw [← hfile] at hload
    exact ⟨k, rfl, hflaw, hfile ▸ hlost [] k hload⟩

/-- A time that cannot be encoded takes the place of a configuration that could be loaded. -/
theorem file_ne_of_surrogate :
    let k : Keeper := ⟨Settings.standard, [], "\x7b\x7d"⟩
    let after := k.saved (.timestamp (.text [⟨0xD800, by decide⟩]))
    ofFile (some k.file) [] = .ok k ∧ after.2 = some .unencodable ∧ after.1.file ≠ k.file :=
  ⟨rfl, by decide +kernel, by decide +kernel⟩

end Keeper

end DiceBot
