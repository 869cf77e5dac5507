import DiceBot.Decimal.Magnitude
import DiceBot.Json.Basic

/-!
# Settings

What the bot is told by its configuration file. The file is written by hand, so a setting may hold
any JSON value; it is looked at only when it is needed.

## Main definitions

* `Settings`: the settings
* `Settings.Flaw`: why settings cannot be read, used or kept
* `Settings.ofJson`, `Settings.toJson`: the settings in a configuration file
* `Settings.isDeveloper`, `Settings.isAllowed`: what the settings decide
-/

namespace DiceBot

/-- Why settings cannot be read, used or kept. -/
inductive Settings.Flaw where
  /-- The file is no JSON document. -/
  | malformed
  /-- A numeral in the file has too many digits. -/
  | numeralTooLong
  /-- The file holds no object where it should. -/
  | notObject
  /-- A setting that is searched is no list. -/
  | notSearchable
  /-- A setting that something is added to is no list. -/
  | notExtensible
  /-- A list or an object stands where one channel is named. -/
  | notSingle
  /-- A text with a surrogate is to be written. -/
  | unencodable
  /-- The entry of a channel holds signs that are no decimal digits. -/
  | notChannel (entry : Text)
  /-- The number of a channel has this many digits. -/
  | channelTooLong (digits : Nat)
deriving DecidableEq

/-- The settings. -/
structure Settings where
  /-- The users who may manage the bot. -/
  developers : Json
  /-- The channels in which the bot answers; if there are none, it answers everywhere. -/
  allowedChannels : Json
  /-- The playlist that is watched. -/
  playlistId : Json
  /-- What the playlist is called. -/
  playlistName : Json
  /-- The channel in which new videos are announced. -/
  announceChannel : Json
  /-- The time after which a video is new. -/
  playlistTimestamp : Json

namespace Settings

/-- The time after which a video is new, before any has been announced. -/
def firstTimestamp : Text := "2023-02-21T00:00:00Z"

/-- The settings without a configuration file. -/
def standard : Settings where
  developers := .array []
  allowedChannels := .array []
  playlistId := .text "PLrBG-2LsZMEWWoyEJKsQ3kbom9MFJ1n7e"
  playlistName := .text "Bael's playlist"
  announceChannel := .null
  playlistTimestamp := .text firstTimestamp

/-- A list that is not there is empty. -/
def orEmpty : Json → Json
  | .null => .array []
  | j => j

/-- The settings among the members of the global section; what is missing is as in `standard`. -/
def ofMembers (members : List (Text × Json)) : Settings :=
  let member (name : Text) (absent : Json) : Json := (Json.find? members name).getD absent
  { developers := orEmpty (member "developers" standard.developers)
    allowedChannels := orEmpty (member "allowed_channels" standard.allowedChannels)
    playlistId := member "playlist_id" standard.playlistId
    playlistName := member "playlist_name" standard.playlistName
    announceChannel := member "announce_channel" standard.announceChannel
    playlistTimestamp := member "playlist_timestamp" standard.playlistTimestamp }

/-- The settings that a configuration file holds in its global section. -/
def ofJson : Json → Except Flaw Settings
  | .object members =>
    match (Json.find? members "global").getD (.object []) with
    | .object members => .ok (ofMembers members)
    | _ => .error .notObject
  | _ => .error .notObject

/-- The configuration file that holds the settings. -/
def toJson (s : Settings) : Json :=
  .object [("global", .object
    [("developers", s.developers), ("allowed_channels", s.allowedChannels),
     ("playlist_id", s.playlistId), ("playlist_name", s.playlistName),
     ("announce_channel", s.announceChannel), ("playlist_timestamp", s.playlistTimestamp)])]

/-- Reading undoes writing, for lists that are there. -/
theorem ofJson_toJson (s : Settings) :
    ofJson s.toJson = .ok { s with developers := orEmpty s.developers
                                   allowedChannels := orEmpty s.allowedChannels } := by
  simp [ofJson, toJson, ofMembers, Json.find?, Text.ofString, CodePoint.ofChar]

/-- Whether a JSON value is a number equal to an integer; the truth values count as 0 and 1. -/
def equalsInteger (n : Int) : Json → Bool
  | .integer m => m = n
  | .float x => floatInteger? x = some n
  | .bool b => n = if b then 1 else 0
  | _ => false

/-- Whether a user may manage the bot. The names in an object are no users. -/
def isDeveloper (s : Settings) (user : Int) : Except Flaw Bool :=
  match s.developers with
  | .array ids => .ok (ids.any (equalsInteger user))
  | .object _ => .ok false
  | _ => .error .notSearchable

/-- Whether the bot answers in a channel, given channels that are allowed beside those of the
settings. -/
def isAllowed (s : Settings) (extra : List Int) (channel : Int) : Except Flaw Bool :=
  match s.allowedChannels with
  | .array ids =>
    .ok ((ids.isEmpty && extra.isEmpty) || ids.any (equalsInteger channel)
      || extra.contains channel)
  | _ => .error .notSearchable

/-- A list with one more item at its end. -/
def extended (list item : Json) : Except Flaw Json :=
  match list with
  | .array items => .ok (.array (items ++ [item]))
  | _ => .error .notExtensible

end Settings

end DiceBot
