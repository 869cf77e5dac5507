import DiceBot.Chat.Basic
import DiceBot.Dice.Response
import DiceBot.Settings.Keeper
import DiceBot.Text.Blank

/-!
# Listening for dice

The bot listens to the messages of the chat for roll and arithmetic commands, and it has a command
of its own for rolls. The flag `private` sends the answer to the author alone.

## Main definitions

* `IncomingMessage`: a message of the chat
* `Text.answered`: the answer to a message, if it is a command that has one
* `hear`: the reaction to a message
* `rollOnRequest`: the reaction to the roll command
-/

namespace DiceBot

/-- A message of the chat. -/
structure IncomingMessage where
  /-- What it says. -/
  content : Text
  /-- Whether a bot wrote it. -/
  fromBot : Bool
  /-- The channel in which it stands. -/
  channel : Int
  /-- The name of its author. -/
  author : Text
  /-- Where it is found. -/
  link : Text

/-- The flag that asks for an answer to the author alone. -/
def privateFlag : Text := "private"

/-- The answer to a command whose first die has a given number in the sequence of rolls, and the
number of dice that fell. A text that is no command has no answer. -/
def Text.answered (command : Text) (shaker : Shaker) (index : Nat) :
    Response (Option Text) × Nat :=
  let expression := command.drop 1
  if isRollCommand command then
    let (response, dice) := rollResponse expression shaker index
    ({ response with answer := response.answer.map some }, dice)
  else if isArithmeticCommand command then (arithmeticResponse expression, 0)
  else ({ answer := .ok none }, 0)

/-- The delivery of an answer to a message: to the author alone if the flags ask for it, and
otherwise as a reply. -/
def deliver (m : IncomingMessage) (flags : List Text) (answer : Text) : Reaction :=
  if privateFlag ∈ flags then
    { messages := [.whisper (m.link ++ "\n" ++ answer)]
      journal := [⟨.info, "私訊結果給 " ++ m.author⟩] }
  else .say (.reply answer)

/-- The reaction to a message, with the number of dice that have fallen after it. Bots and the
channels in which the bot does not answer are not listened to. -/
def hear (k : Keeper) (shaker : Shaker) (index : Nat) (m : IncomingMessage) : Reaction × Nat :=
  if m.fromBot then (.none, index)
  else match k.isAllowed m.channel with
    | .error flaw => (.fail (.settings flaw), index)
    | .ok false => (.none, index)
    | .ok true =>
      let (command, flags) := m.content.trimmed.splitFlags
      let (response, dice) := Text.answered command shaker index
      match response.answer with
      | .error fault => ({ journal := response.journal, failure := some (.fault fault) },
          index + dice)
      | .ok none => ({ journal := response.journal }, index + dice)
      | .ok (some answer) =>
        let delivery := deliver m flags answer
        ({ delivery with journal := response.journal ++ delivery.journal }, index + dice)

/-- The reaction to the roll command, with the number of dice that have fallen after it. -/
def rollOnRequest (shaker : Shaker) (index : Nat) (expression : Text) : Reaction × Nat :=
  if expression.isRoll then
    let (response, dice) := rollResponse expression shaker index
    match response.answer with
    | .error fault => ({ journal := response.journal, failure := some (.fault fault) },
        index + dice)
    | .ok answer => ({ messages := [.post answer], journal := response.journal }, index + dice)
  else (.say (.post "Invalid roll string"), index)

end DiceBot
