import DiceBot.Text.Basic

/-!
# JSON values

The values that configuration files and playlist responses hold. Integers and other numbers are
kept apart, since a channel is known by its exact number, and the members of an object keep the
order in which their names first came.

## Main definitions

* `Json`: a JSON value
* `Json.put`: the members of an object, with one more
* `Json.member?`: the member of an object with a given name
-/

namespace DiceBot

/-- A JSON value. -/
inductive Json where
  | null
  | bool (b : Bool)
  | integer (n : Int)
  | float (x : Float)
  | text (t : Text)
  | array (items : List Json)
  | object (members : List (Text × Json))

namespace Json

/-- Members with one more: a name that is there keeps its place and takes the new value. -/
def put (members : List (Text × Json)) (name : Text) (value : Json) : List (Text × Json) :=
  match members with
  | [] => [(name, value)]
  | (other, old) :: rest =>
    if other = name then (name, value) :: rest else (other, old) :: put rest name value

/-- The member with a given name. -/
def find? (members : List (Text × Json)) (name : Text) : Option Json :=
  (members.find? fun m => m.1 = name).map (·.2)

/-- The member of an object with a given name; other values have no members. -/
def member? (j : Json) (name : Text) : Option Json :=
  match j with
  | object members => find? members name
  | _ => none

end Json

end DiceBot
