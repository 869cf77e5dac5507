import DiceBot.Json.Printer
import DiceBot.Json.Reader
import DiceBot.Settings.Channels

/-!
# Keeping settings

The settings in use and the file in which they are kept. To save is to empty the file and to write
it anew, piece by piece: a piece that cannot be written leaves the pieces before it in the file and
the new settings in use. Before the file is emptied the settings are copied, which is possible only
where no value in them is nested too deeply; here they are taken to be such that it is.

## Main definitions

* `Keeper`: the settings in use, the channels of the environment and the text of the file
* `Keeper.ofFile`: the settings of a file
* `Keeper.save`: the settings in use into the file
* `Keeper.setTimestamp`, `Keeper.setChannel`: a setting changed and saved
-/

namespace DiceBot

/-- The settings in use and the file in which they are kept. -/
structure Keeper where
  /-- The settings in use. -/
  settings : Settings
  /-- The channels that the environment allows. -/
  extraChannels : List Int
  /-- The text of the file. -/
  file : Text

namespace Keeper

/-- What of some pieces is written, and the flaw at which the writing stops. -/
def write : List (Except Fault Text) → Text × Option Settings.Flaw
  | [] => ([], none)
  -- a piece that cannot be made is an integer with too many digits
  | .error _ :: _ => ([], some .numeralTooLong)
  | .ok piece :: rest =>
    if piece.encodable then
      let (written, flaw) := write rest
      (piece ++ written, flaw)
    else ([], some .unencodable)

/-- The text of a file for some settings, and the flaw at which its writing stops. -/
def written (s : Settings) : Text × Option Settings.Flaw :=
  write (Json.chunks 0 [] s.toJson)

/-- The settings that the text of a file holds. -/
def readFile (file : Text) : Except Settings.Flaw Settings :=
  match Json.read file with
  | .ok j => Settings.ofJson j
  | .error .malformed => .error .malformed
  | .error .numeralTooLong => .error .numeralTooLong

/-- The settings of a file and the channels of the environment. A file that is not there is
written with the standard settings. -/
def ofFile (file : Option Text) (channels : Text) : Except Settings.Flaw Keeper := do
  let (settings, text) ← match file with
    | some text => do pure (← readFile text, text)
    | none => pure (Settings.standard, (written Settings.standard).1)
  let extraChannels ← Settings.readChannels channels
  return { settings, extraChannels, file := text }

/-- The settings in use into the file, and the flaw at which this stops. -/
def save (k : Keeper) : Keeper × Option Settings.Flaw :=
  let (file, flaw) := written k.settings
  ({ k with file }, flaw)

/-- New settings into use and into the file. -/
def replace (k : Keeper) (s : Settings) : Keeper × Option Settings.Flaw :=
  { k with settings := s }.save

/-- The time after which a video is new, changed and saved. -/
def setTimestamp (k : Keeper) (value : Json) : Keeper × Option Settings.Flaw :=
  k.replace { k.settings with playlistTimestamp := value }

/-- The channel in which new videos are announced, changed and saved. -/
def setChannel (k : Keeper) (value : Json) : Keeper × Option Settings.Flaw :=
  k.replace { k.settings with announceChannel := value }

/-- The settings with one more developer, not saved. -/
def addDeveloper (k : Keeper) (user : Json) : Except Settings.Flaw Keeper := do
  let developers ← Settings.extended k.settings.developers user
  return { k with settings := { k.settings with developers } }

/-- The settings with one more allowed channel, not saved. -/
def addChannel (k : Keeper) (channel : Json) : Except Settings.Flaw Keeper := do
  let allowedChannels ← Settings.extended k.settings.allowedChannels channel
  return { k with settings := { k.settings with allowedChannels } }

/-- Whether a user may manage the bot. -/
def isDeveloper (k : Keeper) (user : Int) : Except Settings.Flaw Bool :=
  k.settings.isDeveloper user

/-- Whether the bot answers in a channel. -/
def isAllowed (k : Keeper) (channel : Int) : Except Settings.Flaw Bool :=
  k.settings.isAllowed k.extraChannels channel

end Keeper

end DiceBot
