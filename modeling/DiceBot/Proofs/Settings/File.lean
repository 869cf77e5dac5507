import DiceBot.Proofs.Json.RoundTrip
import DiceBot.Settings.Keeper

/-!
# Saved settings

When settings are saved without a flaw, the file holds all their pieces, and reading the file gives
the settings again as JSON is read back. So a text that is set, such as the time of the next search,
is the text that is found after a reload.

## Main definitions

* `Settings.reloaded`: the settings that are read where settings were written

## Main results

* `Keeper.readFile_written`: a file that was written to its end is read back
* `Keeper.readFile_of_ofFile`: settings that were loaded are in the file
* `Keeper.setTimestamp_eq_none`: what is kept when a time was set without a flaw
-/

namespace DiceBot

/-- The settings that are read where settings were written. -/
def Settings.reloaded (s : Settings) : Settings where
  developers := orEmpty s.developers.reread
  allowedChannels := orEmpty s.allowedChannels.reread
  playlistId := s.playlistId.reread
  playlistName := s.playlistName.reread
  announceChannel := s.announceChannel.reread
  playlistTimestamp := s.playlistTimestamp.reread

namespace Settings

/-- The names of the settings are distinct, so each setting is read under its own name. -/
theorem reread_toJson (s : Settings) :
    s.toJson.reread = toJson
      { developers := s.developers.reread
        allowedChannels := s.allowedChannels.reread
        playlistId := s.playlistId.reread
        playlistName := s.playlistName.reread
        announceChannel := s.announceChannel.reread
        playlistTimestamp := s.playlistTimestamp.reread } := by
  simp [toJson, Json.reread, Json.rereadMembers, Json.put, Text.ofString, CodePoint.ofChar]

theorem ofJson_reread_toJson (s : Settings) : ofJson s.toJson.reread = .ok s.reloaded := by
  rw [reread_toJson, ofJson_toJson]
  rfl

theorem reloaded_playlistTimestamp {s : Settings} {t : Text}
    (h : s.playlistTimestamp = .text t) : s.reloaded.playlistTimestamp = .text t := by
  rw [reloaded, h]
  rfl

end Settings

namespace Keeper

/-- Without a flaw all pieces were made and make up the text. -/
theorem write_eq_none {pieces : List (Except Fault Text)} {t : Text}
    (h : write pieces = (t, none)) :
    (∀ piece ∈ pieces, Json.IsMade piece) ∧ t = pieces.flatMap Json.chunkText := by
  induction pieces generalizing t with
  | nil =>
    cases h
    exact ⟨nofun, rfl⟩
  | cons piece rest ih =>
    cases piece with
    | error fault => cases h
    | ok piece =>
      rw [write] at h
      split at h
      · cases hrest : write rest with
        | mk more flaw =>
          rw [hrest] at h
          cases h
          obtain ⟨hmade, rfl⟩ := ih hrest
          exact ⟨List.forall_mem_cons.mpr ⟨⟨piece, rfl⟩, hmade⟩, rfl⟩
      · cases h

/-- A file that was written to its end is read back. -/
theorem readFile_written {s : Settings} {t : Text} (h : written s = (t, none)) :
    readFile t = .ok s.reloaded := by
  obtain ⟨hmade, ht⟩ := write_eq_none h
  obtain ⟨hwritable, htext⟩ := Json.flatMap_chunks 0 [] s.toJson hmade
  rw [readFile, ht, htext, List.nil_append, Json.read_indented hwritable]
  exact Settings.ofJson_reread_toJson s

/-- What is kept when a time was set without a flaw. -/
theorem setTimestamp_eq_none {k k' : Keeper} {value : Json}
    (h : k.setTimestamp value = (k', none)) :
    k'.settings = { k.settings with playlistTimestamp := value } ∧
      readFile k'.file = .ok k'.settings.reloaded := by
  have hsettings : k'.settings = { k.settings with playlistTimestamp := value } :=
    congrArg (·.1.settings) h.symm
  have hwritten : written k'.settings = (k'.file, none) := by
    rw [hsettings]
    exact Prod.ext (congrArg (·.1.file) h) (congrArg (·.2) h)
  exact ⟨hsettings, readFile_written hwritten⟩

/-! ## Settings from a file -/

/-- Settings that were loaded are those in the file. -/
theorem of_ofFile_some {text channels : Text} {k : Keeper}
    (h : ofFile (some text) channels = .ok k) :
    readFile text = .ok k.settings ∧ k.file = text := by
  obtain ⟨settings, hread, h⟩ := bind_eq_ok_iff.mp h
  obtain ⟨⟨settings', text'⟩, hpair, h⟩ := bind_eq_ok_iff.mp h
  obtain ⟨extra, -, h⟩ := bind_eq_ok_iff.mp h
  cases hpair
  cases h
  exact ⟨hread, rfl⟩

/-- Without a file one with the standard settings is written. -/
theorem of_ofFile_none {channels : Text} {k : Keeper}
    (h : ofFile none channels = .ok k) :
    k.settings = Settings.standard ∧ k.file = (written Settings.standard).1 := by
  obtain ⟨⟨settings, text⟩, hpair, h⟩ := bind_eq_ok_iff.mp h
  obtain ⟨extra, -, h⟩ := bind_eq_ok_iff.mp h
  cases hpair
  cases h
  exact ⟨rfl, rfl⟩

/-- Nothing keeps the standard settings from being written. -/
theorem written_standard : (written Settings.standard).2 = none := by
  decide +kernel

/-- Settings that were just loaded are in the file, and if there was no file, one with the standard
settings was written. -/
theorem readFile_of_ofFile {file : Option Text} {channels : Text} {k : Keeper}
    (h : ofFile file channels = .ok k) : readFile k.file = .ok k.settings := by
  cases file with
  | some text =>
    obtain ⟨hread, hfile⟩ := of_ofFile_some h
    rw [hfile, hread]
  | none =>
    obtain ⟨hsettings, hfile⟩ := of_ofFile_none h
    rw [hfile, hsettings, readFile_written (Prod.ext rfl written_standard)]
    rfl

end Keeper

end DiceBot
