import DiceBot.Action.Store
import DiceBot.Fault
import DiceBot.Journal.Basic
import DiceBot.Playlist.Video
import DiceBot.Settings.Basic

/-!
# The chat

What the bot says in the chat, and what becomes of it: the chat may refuse a message, and a
reaction may be broken off by a failure that nobody answers for.

## Main definitions

* `Message`: a message of the bot
* `ServiceError`: what the chat reports when it does not do what it is asked for
* `Failure`: why a reaction is broken off
* `Reaction`: what the bot does about an event
-/

namespace DiceBot

/-- The backquote, between which the chat shows code. -/
def codeMark : CodePoint := ⟨0x60, by decide⟩

/-- A text that the chat shows as code. -/
def Text.code (t : Text) : Text :=
  codeMark :: t ++ [codeMark]

/-- How a message is sent. -/
inductive Manner where
  /-- In answer to the message that caused it. -/
  | reply
  /-- Into the channel. -/
  | post
  /-- To the user alone. -/
  | whisper
deriving DecidableEq

/-- What a message says. -/
inductive Content where
  /-- A text. -/
  | text (t : Text)
  /-- A card with a title and a color. -/
  | card (title description : Text) (color : Nat)
deriving DecidableEq

/-- A message of the bot. -/
structure Message where
  /-- How it is sent. -/
  manner : Manner
  /-- What it says. -/
  content : Content
deriving DecidableEq

namespace Message

/-- An answer. -/
def reply (t : Text) : Message := ⟨.reply, .text t⟩

/-- A message into the channel. -/
def post (t : Text) : Message := ⟨.post, .text t⟩

/-- A message to the user alone. -/
def whisper (t : Text) : Message := ⟨.whisper, .text t⟩

end Message

/-- What the chat reports when it does not do what it is asked for, in its own words. -/
inductive ServiceError where
  /-- The chat refused the request. -/
  | refused (report : Text)
  /-- Something else went wrong. -/
  | other (report : Text)
deriving DecidableEq

namespace ServiceError

/-- The wording of a report. -/
def message : ServiceError → Text
  | .refused report => report
  | .other report => report

/-- Whether the chat refused the request. -/
def isRefusal : ServiceError → Bool
  | .refused .. => true
  | .other _ => false

end ServiceError

/-- Why a reaction is broken off. -/
inductive Failure where
  /-- An expression meets a limit. -/
  | fault (f : Fault)
  /-- The settings cannot be used or kept. -/
  | settings (f : Settings.Flaw)
  /-- The store refuses a request. -/
  | store (f : ActionStore.Flaw)
  /-- The playlist's response cannot be used. -/
  | playlist (f : Playlist.Flaw)
  /-- The playlist's server cannot be reached at all. -/
  | unreachable
  /-- The chat does not take a message. -/
  | service (e : ServiceError)
  /-- The watch over the playlist runs already. -/
  | alreadyRunning
  /-- The bot has its groups of commands already. -/
  | alreadyStarted
deriving DecidableEq

/-- What the bot does about an event. -/
structure Reaction where
  /-- The messages that are sent. -/
  messages : List Message := []
  /-- The journal entries. -/
  journal : List Entry := []
  /-- The failure by which the reaction is broken off, if there is one. -/
  failure : Option Failure := none
deriving DecidableEq

namespace Reaction

/-- The bot does nothing. -/
def none : Reaction := {}

/-- The bot sends one message. -/
def say (m : Message) : Reaction := { messages := [m] }

/-- The reaction is broken off before anything is sent. -/
def fail (f : Failure) : Reaction := { failure := some f }

end Reaction

end DiceBot
