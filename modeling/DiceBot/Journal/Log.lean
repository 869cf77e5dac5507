import DiceBot.Journal.Basic

/-!
# The log

Journal entries are written to the console and, if the log has a file, to that file. An entry that
would fill the file makes it an old one and begins a new one; of the old files only the youngest
are kept.

## Main definitions

* `Log`: the console and the files
* `Log.write`: the log with one more entry
* `Log.namedFiles`: the files with their names
-/

namespace DiceBot

/-- A file of the log. -/
structure LogFile where
  /-- The records. -/
  records : List Text := []
deriving DecidableEq

namespace LogFile

/-- The bytes of a file. -/
def size (f : LogFile) : Nat :=
  f.records.foldl (fun n r => r.foldl (fun n c => n + c.utf8.length) n) 0

/-- The bytes at which a file counts as full. -/
def capacity : Nat := 1048576

/-- The most old files that are kept. -/
def maxOld : Nat := 5

end LogFile

/-- The console and the files of a log. -/
structure Log where
  /-- The lowest level of an entry that is written. -/
  level : Int
  /-- The records on the console. -/
  console : List Text
  /-- The file and the old files, the youngest first, if the log has a file. -/
  files : Option (LogFile × List LogFile)
deriving DecidableEq

namespace Log

/-- The level that a setting asks for; zero leaves it at that of a warning. -/
def effectiveLevel (setting : Int) : Int :=
  if setting = 0 then Severity.warning.level else setting

/-- A log in which nothing has been written. -/
def new (hasFile : Bool) (setting : Int) : Log where
  level := effectiveLevel setting
  console := []
  files := if hasFile then some ({}, []) else none

/-- The record of an entry at a time. -/
def record (stamp : Text) (e : Entry) : Text :=
  stamp ++ " - WakeBot - " ++ e.severity.name ++ " - " ++ e.message ++ "\n"

/-- The files with one more record. The measure of a record is its number of code points. -/
def append (record : Text) : LogFile × List LogFile → LogFile × List LogFile
  | (file, old) =>
    if file.size + record.length < LogFile.capacity then
      ({ records := file.records ++ [record] }, old)
    else ({ records := [record] }, (file :: old).take LogFile.maxOld)

/-- The log with one more entry, unless the entry is below its level. -/
def write (l : Log) (stamp : Text) (e : Entry) : Log :=
  if (e.severity.level : Int) < l.level then l
  else
    let r := record stamp e
    { l with console := l.console ++ [r], files := l.files.map (append r) }

/-- The entry for a failure whose circumstances are not known; that is said on a line of its own
behind the message. -/
def failureEntry (message : Text) : Entry :=
  let lines : Text :=
    if message.getLast? = some (CodePoint.ofChar '\n') then message else message ++ "\n"
  ⟨.error, lines ++ "NoneType: None"⟩

/-- The number of places to which the log writes. -/
def places (l : Log) : Nat :=
  if l.files.isSome then 2 else 1

/-- The files with their names: old ones are numbered, the youngest first. -/
def namedFiles (l : Log) (name : Text) : List (Text × LogFile) :=
  match l.files with
  | none => []
  | some (file, old) =>
    (name, file) :: old.mapIdx fun i f => (name ++ "." ++ Text.natural (i + 1), f)

end Log

end DiceBot
