import DiceBot.Text.Basic

/-!
# Journal entries

The bot keeps a journal of what it does and what goes wrong.

## Main definitions

* `Severity`: how much an entry matters
* `Entry`: a message with its severity
-/

namespace DiceBot

/-- How much a journal entry matters. -/
inductive Severity where
  | debug
  | info
  | warning
  | error
deriving DecidableEq

/-- The level of a severity; a journal keeps what reaches its own level. -/
def Severity.level : Severity → Nat
  | .debug => 10
  | .info => 20
  | .warning => 30
  | .error => 40

/-- The name of a severity in the journal. -/
def Severity.name : Severity → Text
  | .debug => "DEBUG"
  | .info => "INFO"
  | .warning => "WARNING"
  | .error => "ERROR"

/-- A message for the journal. -/
structure Entry where
  /-- How much it matters. -/
  severity : Severity
  /-- What is written. -/
  message : Text
deriving DecidableEq

end DiceBot
