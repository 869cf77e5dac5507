import DiceBot.Action.Book

/-!
# The store of actions

The book of actions and some counters, as they are kept from one start of the bot to the next. The
store holds texts in UTF-8, and so none with a surrogate. Its counters may be missing.

## Main definitions

* `ActionStore`: the book and the counters
* `ActionStore.Flaw`: why the store refuses a request
* `ActionStore.put`, `ActionStore.get?`, `ActionStore.delete`, `ActionStore.increment`: requests
-/

namespace DiceBot

/-- Why the store refuses a request. -/
inductive ActionStore.Flaw where
  /-- A text holds a surrogate. -/
  | unencodable
  /-- The counters are missing. -/
  | noCounters
deriving DecidableEq

/-- The wording of a refusal that is written to the journal. -/
def ActionStore.Flaw.message : ActionStore.Flaw → Text
  | .unencodable => []
  | .noCounters => "no such table: counters"

/-- The book of actions and the counters. -/
structure ActionStore where
  /-- The saved actions. -/
  book : ActionBook
  /-- The counters with their values, unless they are missing. -/
  counters : Option (List (Text × Nat))
deriving DecidableEq

namespace ActionStore

/-- The store without actions, its counters at zero. -/
def empty : ActionStore where
  book := ActionBook.empty
  counters := some []

/-- The roll command saved under a name. -/
def get? (s : ActionStore) (name : Text) : Except Flaw (Option Text) :=
  if name.encodable then .ok (s.book.get? name) else .error .unencodable

/-- The store with a roll command saved under a name, and whether the name was there before. -/
def put (s : ActionStore) (name roll : Text) : Except Flaw (Bool × ActionStore) :=
  if name.encodable ∧ roll.encodable then
    .ok (s.book.contains name, { s with book := s.book.put name roll })
  else .error .unencodable

/-- The store without the action of a name, and whether the name was there before. -/
def delete (s : ActionStore) (name : Text) : Except Flaw (Bool × ActionStore) :=
  if name.encodable then .ok (s.book.contains name, { s with book := s.book.erase name })
  else .error .unencodable

/-- The actions in the order of their names. -/
def list (s : ActionStore) : List (Text × Text) :=
  s.book.entries

/-- The value of a counter. -/
def count (counters : List (Text × Nat)) (name : Text) : Nat :=
  (counters.lookup name).getD 0

/-- The store with a counter increased by one, and its new value. -/
def increment (s : ActionStore) (name : Text) : Except Flaw (Nat × ActionStore) :=
  match s.counters with
  | none => .error .noCounters
  | some counters =>
    if name.encodable then
      let value := count counters name + 1
      .ok (value, { s with counters := some ((name, value) :: counters.filter (·.1 ≠ name)) })
    else .error .unencodable

/-- The store without its counters. -/
def dropCounters (s : ActionStore) : ActionStore :=
  { s with counters := none }

/-- The store opened anew: counters that are missing are made again, empty. -/
def reopened (s : ActionStore) : ActionStore :=
  { s with counters := some (s.counters.getD []) }

end ActionStore

end DiceBot
