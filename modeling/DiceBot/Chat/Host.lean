import DiceBot.Action.Command
import DiceBot.Chat.Guide
import DiceBot.Dice.Listener
import DiceBot.Playlist.Watcher

/-!
# The host

The bot at work: what users ask it for, and how it reacts. In a channel in which the bot does not
answer, messages are not listened to and the commands of actions are passed over. The other
commands are answered everywhere; the watch over the playlist asks for a developer instead.

## Main definitions

* `Request`, `Sender`: what is asked for, and by whom
* `Host`: the state of the bot at work
* `Host.react`: the reaction to a request
-/

namespace DiceBot

/-- What a user asks for. -/
inductive Request where
  /-- A message that is no command of the chat; it may hold a roll. -/
  | message (content : Text)
  /-- To roll an expression. -/
  | roll (expression : Text)
  /-- To save, roll or delete an action. -/
  | action (name roll : Option Text)
  /-- The list of actions. -/
  | actions
  /-- To count a laugh. -/
  | heh
  /-- The explanation of commands. -/
  | help
  /-- To manage the watch over the playlist. -/
  | watch (action : Text)
deriving DecidableEq

/-- Who asks for something, and where. -/
structure Sender where
  /-- The name of the user. -/
  name : Text
  /-- The number of the user. -/
  user : Int
  /-- The channel in which the request stands. -/
  channel : Int
  /-- Where the request is found. -/
  link : Text
deriving DecidableEq

/-- The state of the bot at work. -/
structure Host where
  /-- The actions and the dice that have fallen. -/
  desk : ActionDesk
  /-- The settings and the watch over the playlist. -/
  watcher : Watcher

namespace Host

/-- The host after a reaction of the desk. -/
def atDesk (h : Host) (r : Reaction × ActionDesk) : Reaction × Host :=
  (r.1, { h with desk := r.2 })

/-- The host after a reaction by which some dice have fallen. -/
def fallen (h : Host) (r : Reaction × Nat) : Reaction × Host :=
  (r.1, { h with desk := { h.desk with index := r.2 } })

/-- A reaction that is held back in a channel in which the bot does not answer. -/
def confined (h : Host) (channel : Int) (r : Reaction × Host) : Reaction × Host :=
  match h.watcher.keeper.isAllowed channel with
  | .error flaw => (.fail (.settings flaw), h)
  | .ok false => (.none, h)
  | .ok true => r

/-- The reaction to a request of a user who is no bot. -/
def react (h : Host) (shaker : Shaker) (s : Sender) : Request → Reaction × Host
  | .message content =>
    h.fallen (hear h.watcher.keeper shaker h.desk.index
      { content, fromBot := false, channel := s.channel, author := s.name, link := s.link })
  | .roll expression => h.fallen (rollOnRequest shaker h.desk.index expression)
  | .action name roll => h.confined s.channel (h.atDesk (h.desk.act shaker s.name name roll))
  | .actions => h.confined s.channel (h.desk.list, h)
  | .heh => h.confined s.channel (h.atDesk h.desk.countHeh)
  | .help => (guide, h)
  | .watch action =>
    let report := h.watcher.manage s.user s.channel action none
    (report.reaction, { h with watcher := report.watcher })

end Host

end DiceBot
