import DiceBot.Chat.Host
import DiceBot.Startup

/-!
# The bot on a console

On a console the bot talks to one user in one channel, line by line. A line that begins with the
name of a command is that command, and the bot listens to any other line. The playlist server is
out of reach, so that the watch can be started but finds nothing.

## Main definitions

* `Request.ofLine`: what a line asks for
* `Bot.host`: the bot at work
* `Host.respond`: the reaction to a line
-/

namespace DiceBot

/-- The first word of a text and what follows it, each if there is one. -/
def Text.splitWord (t : Text) : Option Text × Option Text :=
  let t := t.dropWhile CodePoint.isBlank
  let word := t.takeWhile fun c => !c.isBlank
  let rest := Text.trimmed (t.dropWhile fun c => !c.isBlank)
  (if word = [] then none else some word, if rest = [] then none else some rest)

/-- What a line asks for. -/
def Request.ofLine (line : Text) : Request :=
  let (command, rest) := line.splitWord
  let (word, behind) := Text.splitWord (rest.getD [])
  if command = some "!action" then .action word behind
  else if command = some "!actions" then .actions
  else if command = some "!heh" then .heh
  else if command = some "!help" then .help
  else if command = some "!roll" then .roll (rest.getD [])
  else if command = some "!wakebot" then .watch (word.getD [])
  else .message line

/-- The user of a console. -/
def Sender.console : Sender where
  name := "console"
  user := 1
  channel := 1
  link := []

/-- The bot at work, before it has been asked for anything. -/
def Bot.host (b : Bot) : Host where
  desk := { store := ActionStore.empty, index := 0 }
  watcher := b.watcher.resume.watcher

/-- The reaction to a line. -/
def Host.respond (h : Host) (shaker : Shaker) (line : Text) : Reaction × Host :=
  h.react shaker Sender.console (Request.ofLine line)

end DiceBot
