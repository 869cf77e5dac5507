import DiceBot.Chat.Basic
import DiceBot.Dice.Response
import DiceBot.Settings.Keeper
import DiceBot.Text.Blank

/-!
# Action commands

Actions are saved, rolled and deleted by one command, which tells by its arguments what is wanted.
Nothing is stored unless the reply says so.

## Main definitions

* `ActionRequest`: what a user asks for
* `ActionRequest.ofArguments`: the request that the arguments of the command make
* `ActionDesk.act`: the reaction to the command
* `ActionDesk.list`, `ActionDesk.countHeh`: the reactions to the other commands
-/

namespace DiceBot

/-- What a user asks for. -/
inductive ActionRequest where
  /-- How the command is used. -/
  | usage
  /-- To delete an action. -/
  | delete (name : Text)
  /-- Something with an impossible name. -/
  | badName
  /-- To save a roll command under a name. -/
  | save (name roll : Text)
  /-- To roll an action. -/
  | use (name : Text)
deriving DecidableEq

namespace ActionRequest

/-- The code points of which names are made: letters and digits of ASCII, the low line and the
hyphen. -/
def isNamePart (c : CodePoint) : Bool :=
  c.isIn [(0x30, 0x39), (0x41, 0x5A), (0x61, 0x7A)] || c = '_' || c = '-'

/-- Whether a text may name an action. One line end may stand behind the name. -/
def isName (t : Text) : Bool :=
  let name := if t.getLast? = some (CodePoint.ofChar '\n') then t.dropLast else t
  name ≠ [] && name.all isNamePart

/-- The request that the two arguments of the command make. An argument that is empty counts as
missing. -/
def ofArguments (name roll : Option Text) : ActionRequest :=
  let name := name.getD []
  let roll := roll.getD []
  if name = [] then .usage
  else if name = "delete" ∧ roll ≠ [] then .delete roll.trimmed
  else if !isName name then .badName
  else if roll ≠ [] then .save name roll.trimmed
  else .use name

end ActionRequest

/-- How the command is used. -/
def actionUsage : Text :=
  Text.joined "\n"
    ["Invalid request sent for action.",
     "To add, format like: !action <name> <roll>",
     "To use, format like: !action <name>",
     "To delete, format like: !action delete <name>"]

/-- The store of actions, and the number of dice that have fallen. -/
structure ActionDesk where
  /-- The store. -/
  store : ActionStore
  /-- The number of dice that have fallen. -/
  index : Nat

namespace ActionDesk

/-- A name between quotation marks, as replies show it. -/
def nameText (name : Text) : Text :=
  "'" ++ name ++ "'"

/-- The reaction to a request to delete an action. -/
def delete (d : ActionDesk) (author name : Text) : Reaction × ActionDesk :=
  if name.contains (CodePoint.ofChar ' ') then
    (.say (.reply "Invalid delete request.\nFormat should be '!action delete <name>'"), d)
  else match d.store.delete name with
    | .error flaw => (.fail (.store flaw), d)
    | .ok (false, store) =>
      (.say (.reply ("Action " ++ nameText name ++ " does not exist.")), { d with store })
    | .ok (true, store) =>
      ({ messages := [.reply "Action deleted."]
         journal := [⟨.info, author ++ " 刪除了動作 " ++ name⟩] }, { d with store })

/-- The reaction to a request to save an action. -/
def save (d : ActionDesk) (author name roll : Text) : Reaction × ActionDesk :=
  if !roll.isRoll then (.say (.reply "Invalid roll string"), d)
  else match d.store.put name roll with
    | .error flaw => (.fail (.store flaw), d)
    | .ok (existed, store) =>
      let deed : Text := if existed then "更新" else "新增"
      let done : Text := if existed then "updated" else "created"
      ({ messages := [.reply ("Action " ++ nameText name ++ " " ++ done ++ ".")]
         journal := [⟨.info, author ++ " " ++ deed ++ "了動作 " ++ name ++ ": " ++ roll⟩] },
       { d with store })

/-- The reaction to a request to roll an action. -/
def use (d : ActionDesk) (shaker : Shaker) (name : Text) : Reaction × ActionDesk :=
  match d.store.get? name with
  | .error flaw => (.fail (.store flaw), d)
  | .ok none => (.say (.reply ("No action named " ++ nameText name ++ " found.")), d)
  | .ok (some roll) =>
    let (response, dice) := rollResponse roll shaker d.index
    let d := { d with index := d.index + dice }
    match response.answer with
    | .error fault => ({ journal := response.journal, failure := some (.fault fault) }, d)
    | .ok answer => ({ messages := [.reply answer], journal := response.journal }, d)

/-- The reaction to the command with two arguments. -/
def act (d : ActionDesk) (shaker : Shaker) (author : Text) (name roll : Option Text) :
    Reaction × ActionDesk :=
  match ActionRequest.ofArguments name roll with
  | .usage => (.say (.reply actionUsage), d)
  | .delete name => d.delete author name
  | .badName => (.say (.reply "Invalid action name"), d)
  | .save name roll => d.save author name roll
  | .use name => d.use shaker name

/-- The line of an action in the list of all. -/
def entryLine (e : Text × Text) : Text :=
  Text.code e.1 ++ ": " ++ e.2

/-- The reaction to the command that lists the actions. -/
def list (d : ActionDesk) : Reaction :=
  match d.store.list with
  | [] => .say (.reply "No actions saved yet.")
  | entries =>
    .say ⟨.reply, .card "Saved actions" (Text.joined "\n" (entries.map entryLine)) 0x7289DA⟩

/-- The reaction to the command that counts laughs. Without counters the bot apologizes. -/
def countHeh (d : ActionDesk) : Reaction × ActionDesk :=
  match d.store.increment "heh" with
  | .ok (n, store) =>
    (.say (.reply ("Heh, we've counted " ++ Text.natural n ++ " 'heh's.")), { d with store })
  | .error flaw =>
    ({ messages := [.reply "Heh, failed to get 'heh' count."]
       journal := [⟨.error, "更新 heh 計數時出錯: " ++ flaw.message⟩] }, d)

end ActionDesk

end DiceBot
