import DiceBot.Chat.Basic
import DiceBot.Fault

/-!
# The guide

The card with which the bot explains its commands.

## Main definitions

* `guideText`: the explanation
* `guide`: the reaction to the help command
-/

namespace DiceBot

/-- The explanation of roll commands. -/
def rollGuide : Text :=
  "**!<roll>**\nRoll dice with arithmetic, e.g. " ++ Text.code "!1d20+5" ++ ", "
    ++ Text.code "!2d20kh1" ++ ", " ++ Text.code "!4d6kl3" ++ ", " ++ Text.code "!(1d6+2)*2"
    ++ ". " ++ Text.code "k" ++ "/" ++ Text.code "kh" ++ " keeps the highest dice, "
    ++ Text.code "kl" ++ " the lowest. At most " ++ Text.natural maxDice
    ++ " dice per term.\nAdd " ++ Text.code "--private"
    ++ " to receive the result by direct message.\n\n"

/-- The explanation of arithmetic commands. -/
def arithmeticGuide : Text :=
  "**!<math>**\nEvaluate plain arithmetic, e.g. " ++ Text.code "!2+3*4" ++ ".\n\n"

/-- The explanation of action commands. -/
def actionGuide : Text :=
  "**Actions**\n" ++ Text.code "!action <name> <roll>" ++ ": save or update a roll.\n"
    ++ Text.code "!action <name>" ++ ": roll a saved action.\n"
    ++ Text.code "!action delete <name>" ++ ": delete a saved action.\n"
    ++ Text.code "!actions" ++ ": list saved actions.\n"
    ++ Text.code "!heh" ++ ": count another 'heh'."

/-- The explanation of all commands. -/
def guideText : Text :=
  rollGuide ++ arithmeticGuide ++ actionGuide

/-- The reaction to the help command. -/
def guide : Reaction :=
  .say ⟨.post, .card "WakeBot commands" guideText 0x1ABC9C⟩

end DiceBot
