import Mathlib.Logic.Function.Basic
import DiceBot.Action.Store
import DiceBot.Proofs.Checked
import DiceBot.Proofs.Text.Encoding

/-!
# What the store of actions answers

The store is compared with two functions of names: one tells which roll command was put last under
a name and not deleted since, the other how often a counter was increased. Every answer of the
store is what these functions say, for requests with texts that have an encoding.

## Main definitions

* `StoreRequest`, `StoreAnswer`: what the store is asked, and what it answers
* `ActionStore.run`: the answers to requests one after another
* `Register`: the two functions
* `Register.Answers`, `Register.after`: what is answered, and what changes

## Main results

* `ActionStore.Represents.answer`: an answer of the store
* `ActionStore.exists_run_empty`: all answers of the store
-/

namespace DiceBot

/-- What the store is asked. -/
inductive StoreRequest where
  /-- To save a roll command under a name. -/
  | put (name roll : Text)
  /-- Which roll command is saved under a name. -/
  | get (name : Text)
  /-- To delete the action of a name. -/
  | delete (name : Text)
  /-- Which actions there are. -/
  | list
  /-- To increase a counter. -/
  | increment (name : Text)
  /-- To be closed and opened anew. -/
  | reopen
deriving DecidableEq

/-- Whether all texts of a request have an encoding. -/
def StoreRequest.IsEncodable : StoreRequest → Prop
  | put name roll => name.encodable = true ∧ roll.encodable = true
  | get name | delete name | increment name => name.encodable = true
  | list | reopen => True

instance : (r : StoreRequest) → Decidable r.IsEncodable
  | .put name roll => inferInstanceAs (Decidable (name.encodable = true ∧ roll.encodable = true))
  | .get name | .delete name | .increment name =>
    inferInstanceAs (Decidable (name.encodable = true))
  | .list | .reopen => inferInstanceAs (Decidable True)

/-- What the store answers. -/
inductive StoreAnswer where
  /-- Whether the name was there before. -/
  | existed (before : Bool)
  /-- The roll command that was found. -/
  | roll (found : Option Text)
  /-- Whether there was something to delete. -/
  | deleted (any : Bool)
  /-- The actions. -/
  | entries (all : List (Text × Text))
  /-- The new value of a counter. -/
  | value (n : Nat)
  /-- The store is open again. -/
  | reopened
deriving DecidableEq

namespace ActionStore

/-- The answer to a request, and the store afterwards. -/
def answer (s : ActionStore) : StoreRequest → Except Flaw (StoreAnswer × ActionStore)
  | .put name roll => do
    let (before, s) ← s.put name roll
    return (.existed before, s)
  | .get name => do return (.roll (← s.get? name), s)
  | .delete name => do
    let (any, s) ← s.delete name
    return (.deleted any, s)
  | .list => return (.entries s.list, s)
  | .increment name => do
    let (n, s) ← s.increment name
    return (.value n, s)
  | .reopen => return (.reopened, s.reopened)

/-- The answers to requests one after another, and the store afterwards. -/
def run (s : ActionStore) : List StoreRequest → Except Flaw (List StoreAnswer × ActionStore)
  | [] => return ([], s)
  | r :: rest => do
    let (a, s) ← s.answer r
    let (answers, s) ← s.run rest
    return (a :: answers, s)

end ActionStore

/-! ## The reference -/

/-- What is saved under each name, and how far each counter has come. -/
structure Register where
  /-- The roll command that was put last under a name, unless it was deleted since. -/
  rolls : Text → Option Text
  /-- How often a counter was increased. -/
  counts : Text → Nat

namespace Register

/-- Nothing is saved, and all counters stand at zero. -/
def empty : Register where
  rolls _ := none
  counts _ := 0

/-- What is saved and counted after a request. -/
def after (g : Register) : StoreRequest → Register
  | .put name roll => { g with rolls := Function.update g.rolls name (some roll) }
  | .delete name => { g with rolls := Function.update g.rolls name none }
  | .increment name => { g with counts := Function.update g.counts name (g.counts name + 1) }
  | .get _ | .list | .reopen => g

/-- Whether entries are the saved actions, each of them once and in the order of the encodings of
their names. -/
structure Lists (g : Register) (entries : List (Text × Text)) : Prop where
  ascending : entries.Pairwise fun a b => a.1.utf8 < b.1.utf8
  mem_iff : ∀ name roll, (name, roll) ∈ entries ↔ g.rolls name = some roll

/-- Whether an answer is what the register says. -/
def Answers (g : Register) : StoreRequest → StoreAnswer → Prop
  | .put name _, a => a = .existed (g.rolls name).isSome
  | .get name, a => a = .roll (g.rolls name)
  | .delete name, a => a = .deleted (g.rolls name).isSome
  | .list, a => ∃ entries, a = .entries entries ∧ g.Lists entries
  | .increment name, a => a = .value (g.counts name + 1)
  | .reopen, a => a = .reopened

/-- Whether answers to requests are what the register says, which changes with each of them. -/
inductive AnswersAll : Register → List StoreRequest → List StoreAnswer → Prop where
  | nil {g : Register} : AnswersAll g [] []
  | cons {g : Register} {r : StoreRequest} {a : StoreAnswer} {requests : List StoreRequest}
      {answers : List StoreAnswer} : g.Answers r a → AnswersAll (g.after r) requests answers →
      AnswersAll g (r :: requests) (a :: answers)

end Register

/-! ## The simulation -/

namespace ActionBook

/-- The names of the entries are distinct, so that an entry is found under its name. -/
theorem mem_entries_iff (b : ActionBook) (name roll : Text) :
    (name, roll) ∈ b.entries ↔ b.get? name = some roll := by
  obtain ⟨entries, hentries⟩ := b
  unfold get?
  dsimp only
  induction entries with
  | nil => exact iff_of_false nofun nofun
  | cons e rest ih =>
    obtain ⟨hfirst, hrest⟩ := List.pairwise_cons.mp hentries
    by_cases he : e.1 = name
    · have hfind : (e :: rest).find? (fun e => e.1 = name) = some e :=
        List.find?_cons_of_pos (decide_eq_true he)
      rw [hfind, List.mem_cons]
      constructor
      · rintro (rfl | hmem)
        · rfl
        · exact absurd (he ▸ hfirst _ hmem) (List.lt_irrefl _)
      · intro h
        refine .inl (Prod.ext he.symm ?_)
        exact (Option.some.inj h).symm
    · have hfind : (e :: rest).find? (fun e => e.1 = name) = rest.find? fun e => e.1 = name :=
        List.find?_cons_of_neg (by simp [he])
      rw [hfind, ← ih hrest, List.mem_cons]
      refine or_iff_right ?_
      rintro rfl
      exact he rfl

end ActionBook

namespace ActionStore

theorem lookup_filter_ne {counters : List (Text × Nat)} {name other : Text} (h : other ≠ name) :
    (counters.filter (·.1 ≠ name)).lookup other = counters.lookup other := by
  induction counters with
  | nil => rfl
  | cons c rest ih =>
    obtain ⟨key, value⟩ := c
    by_cases hkey : key = name
    · have hother : (other == key) = false := beq_eq_false_iff_ne.mpr (hkey ▸ h)
      rw [List.filter_cons_of_neg (by simp [hkey]), ih, List.lookup_cons, hother]
    · rw [List.filter_cons_of_pos (by simp [hkey]), List.lookup_cons, List.lookup_cons, ih]

/-- An increased counter has its new value, and the others are as before. -/
theorem count_increment (counters : List (Text × Nat)) (name other : Text) (value : Nat) :
    count ((name, value) :: counters.filter (·.1 ≠ name)) other =
      if other = name then value else count counters other := by
  unfold count
  rw [List.lookup_cons]
  by_cases ho : other = name
  · rw [if_pos ho, beq_iff_eq.mpr ho]
    rfl
  · rw [if_neg ho, beq_eq_false_iff_ne.mpr ho, lookup_filter_ne ho]

/-- A store holds what a register tells. -/
structure Represents (s : ActionStore) (g : Register) : Prop where
  rolls : ∀ name, s.book.get? name = g.rolls name
  counts : ∃ counters, s.counters = some counters ∧ ∀ name, count counters name = g.counts name

theorem represents_empty : empty.Represents Register.empty where
  rolls _ := rfl
  counts := ⟨[], rfl, fun _ => rfl⟩

variable {s : ActionStore} {g : Register} {r : StoreRequest}

/-- The answer to a request is what the register says, and the store holds what the register tells
afterwards. -/
theorem Represents.answer (h : s.Represents g) (hr : r.IsEncodable) :
    ∃ a s', s.answer r = .ok (a, s') ∧ g.Answers r a ∧ s'.Represents (g.after r) := by
  obtain ⟨hrolls, counters, hcounters, hcounts⟩ := h
  cases r with
  | put name roll =>
    have hput : s.put name roll =
        .ok (s.book.contains name, { s with book := s.book.put name roll }) := if_pos hr
    refine ⟨_, _, bind_eq_ok_iff.mpr ⟨_, hput, rfl⟩, ?_, ?_, counters, hcounters, hcounts⟩
    · rw [Register.Answers, ActionBook.contains, hrolls]
    · intro other
      rw [ActionBook.get?_put, hrolls]
      exact (Function.update_apply ..).symm
  | get name =>
    have hget : s.get? name = .ok (s.book.get? name) := if_pos hr
    refine ⟨_, _, bind_eq_ok_iff.mpr ⟨_, hget, rfl⟩, ?_, hrolls, counters, hcounters, hcounts⟩
    rw [Register.Answers, hrolls]
  | delete name =>
    have hdelete : s.delete name =
        .ok (s.book.contains name, { s with book := s.book.erase name }) := if_pos hr
    refine ⟨_, _, bind_eq_ok_iff.mpr ⟨_, hdelete, rfl⟩, ?_, ?_, counters, hcounters, hcounts⟩
    · rw [Register.Answers, ActionBook.contains, hrolls]
    · intro other
      rw [ActionBook.get?_erase, hrolls]
      exact (Function.update_apply ..).symm
  | list =>
    refine ⟨_, s, rfl, ⟨s.list, rfl, ?_, ?_⟩, hrolls, counters, hcounters, hcounts⟩
    · exact s.book.ascending.imp fun h => Text.utf8_lt_utf8 h
    · intro name roll
      rw [← hrolls]
      exact s.book.mem_entries_iff name roll
  | increment name =>
    have hincrement : s.increment name = .ok (count counters name + 1, { s with
        counters := some ((name, count counters name + 1) :: counters.filter (·.1 ≠ name)) }) := by
      rw [increment, hcounters]
      exact if_pos hr
    refine ⟨_, _, bind_eq_ok_iff.mpr ⟨_, hincrement, rfl⟩, ?_, hrolls, _, rfl, ?_⟩
    · rw [Register.Answers, hcounts]
    · intro other
      rw [count_increment, hcounts, hcounts]
      exact (Function.update_apply ..).symm
  | reopen =>
    refine ⟨_, s.reopened, rfl, rfl, hrolls, counters, ?_, hcounts⟩
    rw [reopened, hcounters]
    rfl

theorem Represents.run {requests : List StoreRequest} (h : s.Represents g)
    (hrequests : ∀ r ∈ requests, r.IsEncodable) :
    ∃ answers s', s.run requests = .ok (answers, s') ∧ g.AnswersAll requests answers ∧
      s'.Represents (requests.foldl Register.after g) := by
  induction requests generalizing s g with
  | nil => exact ⟨[], s, rfl, .nil, h⟩
  | cons r rest ih =>
    obtain ⟨hr, hrest⟩ := List.forall_mem_cons.mp hrequests
    obtain ⟨a, s', ha, hanswers, h'⟩ := h.answer hr
    obtain ⟨answers, s'', hrun, hall, h''⟩ := ih h' hrest
    refine ⟨a :: answers, s'', ?_, .cons hanswers hall, h''⟩
    exact bind_eq_ok_iff.mpr ⟨_, ha, bind_eq_ok_iff.mpr ⟨_, hrun, rfl⟩⟩

/-- Every answer of a store that was empty at first is what the register says, which is empty at
first. -/
theorem exists_run_empty {requests : List StoreRequest}
    (hrequests : ∀ r ∈ requests, r.IsEncodable) :
    ∃ answers s, empty.run requests = .ok (answers, s) ∧
      Register.empty.AnswersAll requests answers := by
  obtain ⟨answers, s, hrun, hall, -⟩ := represents_empty.run hrequests
  exact ⟨answers, s, hrun, hall⟩

/-- Requests for actions of the empty and of another name and for a counter of that name, with the
store opened anew between them. -/
def mixedRequests : List StoreRequest :=
  [.put "b" "d6", .put [] [], .increment "b", .reopen, .put "b" "2d6", .list, .increment "b",
    .delete "b", .get "b"]

/-- What the store answers to them. -/
def mixedAnswers : List StoreAnswer :=
  [.existed false, .existed false, .value 1, .reopened, .existed true,
    .entries [([], []), ("b", "2d6")], .value 2, .deleted true, .roll none]

theorem exists_run_mixedRequests :
    (∀ r ∈ mixedRequests, r.IsEncodable) ∧
      ∃ s, empty.run mixedRequests = .ok (mixedAnswers, s) ∧
        Register.empty.AnswersAll mixedRequests mixedAnswers := by
  have hencodable : ∀ r ∈ mixedRequests, r.IsEncodable := by decide +kernel
  obtain ⟨answers, s, hrun, hall⟩ := exists_run_empty hencodable
  have hanswers : ∃ s, empty.run mixedRequests = .ok (mixedAnswers, s) := ⟨_, rfl⟩
  obtain ⟨s', hrun'⟩ := hanswers
  cases hrun.symm.trans hrun'
  exact ⟨hencodable, s, hrun, hall⟩

end ActionStore

end DiceBot
