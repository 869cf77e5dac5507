import DiceBot.Chat.Console
import DiceBot.Journal.Log

/-!
# The program

The bot on standard input and output. It reads its configuration in the directory of its project,
writes it back when it changes, and keeps its journal on standard error.
-/

namespace DiceBot

namespace Program

/-- The text of a file, if it can be read. -/
def readIfThere (path : String) : IO (Option Text) := do
  try
    return some (Text.ofString (← IO.FS.readFile path))
  catch _ =>
    return none

/-- Journal entries on standard error, in the form of the log. -/
def tell (entries : List Entry) : IO Unit := do
  let seconds := (← IO.monoMsNow) / 1000
  for e in entries do
    IO.eprint (Text.toString (Log.record (Text.natural seconds ++ "s") e))

/-- A message on standard output. -/
def speak (m : Message) : IO Unit :=
  match m.content with
  | .text t => IO.println t.toString
  | .card title description _ => do
    IO.println title.toString
    IO.println description.toString

/-- The variables of the environment that the bot looks at. -/
def environment : IO Variables := do
  let mut found := []
  for name in ["DISCORD_TOKEN", "YOUTUBE_API_KEY", "ALLOWED_CHANNEL_IDS"] do
    if let some value ← IO.getEnv name then
      found := (Text.ofString name, Text.ofString value) :: found
  return found

/-- The variables of a file in the form that this program expects: a name, an equals sign and a value
on each line. -/
def readVariables (file : Text) : Variables :=
  (Text.splitOn '\n' file).filterMap fun line =>
    let name := line.takeWhile (· ≠ CodePoint.ofChar '=')
    if name.length < line.length then
      some (Text.trimmed name, Text.trimmed (line.drop (name.length + 1)))
    else none

/-- What the bot is made from, in the first directory upwards that is a project. -/
def findPremises : IO Premises := do
  let above := ["..", "../.."]
  let mut marked := []
  for directory in "." :: above do
    if (← readIfThere (directory ++ "/.git/HEAD")).isSome then
      marked := Text.ofString directory :: marked
  let directory := projectDirectory "." (above.map Text.ofString) (marked.contains ·)
  let path := directory.toString
  return { directory, environment := ← environment
           variableFile := (← readIfThere (path ++ "/.env")).map readVariables
           configuration := ← readIfThere (path ++ "/config.json") }

/-- The lines of standard input, each answered, up to its end. -/
partial def converse (bot : Bot) (shaker : Shaker) (host : Host) : IO Unit := do
  let line ← (← IO.getStdin).getLine
  if line.isEmpty then return
  let before := host.watcher.keeper.file
  let (reaction, host) := host.respond shaker (Text.ofString line)
  tell reaction.journal
  reaction.messages.forM speak
  let file := host.watcher.keeper.file
  if file ≠ before then IO.FS.writeFile bot.configurationFile.toString file.toString
  converse bot shaker host

/-- A run of the bot from its start to the end of standard input. -/
def run : IO UInt32 := do
  let premises ← findPremises
  match premises.bot.1 with
  | .error _ =>
    let session := premises.session .finished
    tell session.journal
    return UInt32.ofNat (session.exitCode.getD 1)
  | .ok bot =>
    let session := premises.session .finished
    tell (session.journal.take (session.journal.length - 1))
    if premises.configuration.isNone then
      IO.FS.writeFile bot.configurationFile.toString bot.keeper.file.toString
    let seed ← IO.rand 0 0xFFFFFFFFFFFFFFFF
    converse bot (Shaker.ofSeed (UInt64.ofNat seed)) bot.host
    tell (session.journal.drop (session.journal.length - 1))
    return 0

end Program

end DiceBot

def main : IO UInt32 :=
  DiceBot.Program.run
