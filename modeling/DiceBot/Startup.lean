import DiceBot.Chat.Basic
import DiceBot.Playlist.Watcher
import DiceBot.Settings.Keeper

/-!
# Starting the bot

The bot is started in a directory of its own, with variables from the environment and from a file
in that directory. It needs a token; without a key for the playlist server it does not watch the
playlist.

## Main definitions

* `projectDirectory`: the directory of the bot
* `Premises`, `Bot`: what a bot is made from, and the bot
* `Premises.bot`: the bot made, and what the journal is told
* `Bot.start`, `Bot.close`: the bot started and closed
* `Bot.ready`, `reportProblem`: reactions to what the chat reports
* `Premises.session`: a run of the bot from start to end
-/

namespace DiceBot

/-- The directory of the bot among the directories above its program, the innermost first: the
first that is marked as a project, or else the innermost. -/
def projectDirectory (innermost : Text) (above : List Text) (isMarked : Text → Bool) : Text :=
  ((innermost :: above).find? isMarked).getD innermost

/-- Variables with their values. -/
abbrev Variables := List (Text × Text)

namespace Variables

/-- The value of a variable, if it is set. -/
def value? (v : Variables) (name : Text) : Option Text :=
  List.lookup name v

/-- Variables with others for those that are not set; of those the last one counts. -/
def withDefaults (v others : Variables) : Variables :=
  v ++ others.reverse

end Variables

/-- What a bot is made from. -/
structure Premises where
  /-- The directory of the bot. -/
  directory : Text
  /-- The variables of the environment. -/
  environment : Variables
  /-- The variables that are read from the file with variables, if there is one. -/
  variableFile : Option Variables
  /-- The text of the configuration file, if there is one. -/
  configuration : Option Text

/-- The bot. -/
structure Bot where
  /-- The directory of its files. -/
  directory : Text
  /-- What the chat knows it by. -/
  token : Text
  /-- The key for the playlist server. -/
  playlistKey : Option Text
  /-- Its settings. -/
  keeper : Keeper
  /-- Whether it has its groups of commands. -/
  hasGroups : Bool := false

/-- Why no bot can be made. -/
inductive StartFlaw where
  /-- There is no token. -/
  | noToken
  /-- The settings cannot be read. -/
  | settings (f : Settings.Flaw)
deriving DecidableEq

namespace StartFlaw

/-- The wording of a flaw. -/
def message : StartFlaw → Text
  | noToken => "未找到 DISCORD_TOKEN 環境變量"
  | settings f => f.message

/-- Whether a flaw is one of a value: a configuration file of the wrong shape is none. -/
def isOfValue : StartFlaw → Bool
  | settings .notObject => false
  | _ => true

end StartFlaw

namespace Premises

/-- The path of a file in the directory of the bot. -/
def path (directory name : Text) : Text :=
  directory ++ "/" ++ name

/-- What the journal is told about the file with variables. -/
def variableFileEntry (p : Premises) : Entry :=
  if p.variableFile.isSome then ⟨.info, "找到環境變量文件: " ++ path p.directory ".env"⟩
  else ⟨.info, "在 " ++ p.directory ++ " 中未找到 .env 文件，使用系統環境變量"⟩

/-- The variables; those of the environment come before those of the file. -/
def allVariables (p : Premises) : Variables :=
  p.environment.withDefaults (p.variableFile.getD [])

/-- The bot, and what the journal is told. -/
def bot (p : Premises) : Except StartFlaw Bot × List Entry :=
  let found := p.variableFileEntry
  let known := p.allVariables
  -- the configuration is not looked at without a token
  match known.value? "DISCORD_TOKEN" with
  | none | some [] => (.error .noToken, [found])
  | some token =>
    let playlistKey := known.value? "YOUTUBE_API_KEY"
    let journal :=
      if playlistKey.any (· ≠ []) then [found]
      else [found, ⟨.warning, "未找到 YOUTUBE_API_KEY 環境變量，播放清單通知已停用"⟩]
    match Keeper.ofFile p.configuration ((known.value? "ALLOWED_CHANNEL_IDS").getD []) with
    | .error flaw => (.error (.settings flaw), journal)
    | .ok keeper => (.ok { directory := p.directory, token, playlistKey, keeper }, journal)

end Premises

namespace Bot

/-- The file with the configuration. -/
def configurationFile (b : Bot) : Text := Premises.path b.directory "config.json"

/-- The watch over the playlist when the bot starts. -/
def watcher (b : Bot) : Watcher :=
  { key := b.playlistKey, keeper := b.keeper, running := false }

/-- The bot started: it gets its groups of commands, and with them the watch over the playlist is
resumed. Groups that it has already cannot be given to it. -/
def start (b : Bot) : Bot × Reaction :=
  if b.hasGroups then (b, .fail .alreadyStarted)
  else ({ b with hasGroups := true }, b.watcher.resume.reaction)

/-- The bot closed, which takes its groups of commands from it. -/
def close (b : Bot) : Bot :=
  { b with hasGroups := false }

/-- The reaction to being connected under a name to a number of servers: the commands are made
known to the chat, which may refuse them. -/
def ready (user : Text) (servers : Nat) (report : Option ServiceError) : Reaction :=
  let online : Entry :=
    ⟨.info, user ++ " 已經上線! 已連接到 " ++ Text.natural servers ++ " 個服務器"⟩
  match report with
  | none => { journal := [online, ⟨.info, "應用命令已同步"⟩] }
  | some e =>
    if e.isRefusal then { journal := [online, ⟨.error, "同步應用命令時出錯: " ++ e.message⟩] }
    else { journal := [online], failure := some (.service e) }

end Bot

/-- What goes wrong with a command. -/
inductive CommandProblem where
  /-- There is no such command. -/
  | unknown
  /-- The command is not allowed here, or not to this user. -/
  | notAllowed
  /-- The arguments are wrong, and the chat says why. -/
  | badArguments (report : Text)
  /-- Anything else. -/
  | other (e : ServiceError)

/-- The reaction to a problem with a command: of wrong arguments the user is told, of what is not
understood the journal. Messages such as rolls are unknown commands and no problem. -/
def reportProblem (command : Text) : CommandProblem → Reaction
  | .unknown | .notAllowed => .none
  | .badArguments report => .say (.reply ("Err: " ++ report))
  | .other e => { journal := [⟨.error, "執行指令 " ++ command ++ " 時出錯: " ++ e.message⟩] }

/-- How a connection ends. -/
inductive Ending where
  /-- By itself. -/
  | finished
  /-- By an interruption from outside. -/
  | interrupted
  /-- By an error that nobody answers for. -/
  | failed
deriving DecidableEq

/-- A run of the bot. -/
structure Session where
  /-- The code with which the program exits before its end. -/
  exitCode : Option Nat
  /-- Whether an error comes out of the program. -/
  failed : Bool
  /-- Whether a connection was closed. -/
  closed : Bool
  /-- What the journal is told. -/
  journal : List Entry
deriving DecidableEq

/-- A run of a bot made from some premises, whose connection ends in a given way. -/
def Premises.session (p : Premises) (ending : Ending) : Session :=
  let starting : Entry := ⟨.info, "正在啟動WakeBot..."⟩
  let farewell : Entry := ⟨.info, "機器人已關閉"⟩
  match p.bot with
  | (.error flaw, journal) =>
    if flaw.isOfValue then
      { exitCode := some 1, failed := false, closed := false
        journal := starting :: journal ++ [⟨.error, "錯誤：" ++ flaw.message⟩] }
    else
      { exitCode := none, failed := true, closed := false, journal := starting :: journal }
  | (.ok _, journal) =>
    let interruption : List Entry :=
      if ending = .interrupted then [⟨.info, "收到中斷信號，正在關閉機器人..."⟩] else []
    { exitCode := none, failed := ending = .failed, closed := true
      journal := starting :: journal ++ interruption ++ [farewell] }

end DiceBot
