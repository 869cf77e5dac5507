import DiceBot.Decimal.Notation
import DiceBot.Json.Basic
import DiceBot.Text.Quoted

/-!
# JSON values in messages

How a JSON value is shown where a message has room for a text: a text as it is, and any other value
spelled out, with the texts inside it in quotes.

## Main definitions

* `Json.spelled`: a value spelled out
* `Json.shown`: a value inside a message
-/

namespace DiceBot

namespace Json

mutual

/-- A value spelled out, its texts in quotes. -/
def spelled : Json → Text
  | null => "None"
  | bool true => "True"
  | bool false => "False"
  | integer n => Text.integer n
  | float x => Text.float x
  | text t => t.quoted
  | array items => "[" ++ Text.joined ", " (spelledItems items) ++ "]"
  | object members => "\x7b" ++ Text.joined ", " (spelledMembers members) ++ "\x7d"

/-- The items of an array, spelled out. -/
def spelledItems : List Json → List Text
  | [] => []
  | j :: rest => j.spelled :: spelledItems rest

/-- The members of an object, spelled out. -/
def spelledMembers : List (Text × Json) → List Text
  | [] => []
  | (name, j) :: rest => (name.quoted ++ ": " ++ j.spelled) :: spelledMembers rest

end

/-- A value inside a message: a text stands for itself. -/
def shown : Json → Text
  | text t => t
  | j => j.spelled

end Json

end DiceBot
