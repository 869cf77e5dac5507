import DiceBot.Text.Order

/-!
# The book of actions

Saved roll commands by name. The book is kept in the order of the names, each of which it holds at
most once.

## Main definitions

* `ActionBook`: the saved actions
* `ActionBook.get?`, `ActionBook.put`, `ActionBook.erase`: its operations

## Main results

* `ActionBook.get?_put`, `ActionBook.get?_erase`: what is found after a change
-/

namespace DiceBot

/-- The saved actions, each a name with a roll command. -/
structure ActionBook where
  /-- The actions. -/
  entries : List (Text × Text)
  /-- The names ascend. -/
  ascending : entries.Pairwise fun a b => a.1 < b.1
deriving DecidableEq

namespace ActionBook

/-- The book without actions. -/
def empty : ActionBook :=
  ⟨[], .nil⟩

/-- Entries with one more at its place; one of the same name gives way. -/
def insert (name roll : Text) : List (Text × Text) → List (Text × Text)
  | [] => [(name, roll)]
  | e :: rest =>
    if name < e.1 then (name, roll) :: e :: rest
    else if e.1 = name then (name, roll) :: rest
    else e :: insert name roll rest

theorem mem_insert {name roll : Text} {entries : List (Text × Text)} {e : Text × Text}
    (h : e ∈ insert name roll entries) : e = (name, roll) ∨ e ∈ entries := by
  induction entries with
  | nil => simpa [insert] using h
  | cons f rest ih =>
    simp only [insert] at h
    split at h
    · simpa using h
    · split at h
      · rcases List.mem_cons.mp h with h | h
        · exact .inl h
        · exact .inr (List.mem_cons_of_mem _ h)
      · rcases List.mem_cons.mp h with h | h
        · exact .inr (h ▸ List.mem_cons_self)
        · rcases ih h with h | h
          · exact .inl h
          · exact .inr (List.mem_cons_of_mem _ h)

theorem insert_ascending {name roll : Text} {entries : List (Text × Text)}
    (h : entries.Pairwise fun a b => a.1 < b.1) :
    (insert name roll entries).Pairwise fun a b => a.1 < b.1 := by
  induction entries with
  | nil => simp [insert]
  | cons f rest ih =>
    obtain ⟨hf, hr⟩ := List.pairwise_cons.mp h
    simp only [insert]
    split
    · rename_i hlt
      refine List.pairwise_cons.mpr ⟨?_, h⟩
      intro e he
      rcases List.mem_cons.mp he with rfl | he
      · exact hlt
      · exact List.lt_trans hlt (hf e he)
    · rename_i hnlt
      split
      · rename_i heq
        exact List.pairwise_cons.mpr ⟨fun e he => heq ▸ hf e he, hr⟩
      · rename_i hne
        refine List.pairwise_cons.mpr ⟨?_, ih hr⟩
        intro e he
        rcases mem_insert he with rfl | he
        · rcases Text.lt_trichotomy f.1 name with h | h | h
          · exact h
          · exact absurd h hne
          · exact absurd h hnlt
        · exact hf e he

/-- The roll command saved under a name. -/
def get? (b : ActionBook) (name : Text) : Option Text :=
  (b.entries.find? fun e => e.1 = name).map (·.2)

/-- The book with a roll command saved under a name. -/
def put (b : ActionBook) (name roll : Text) : ActionBook :=
  ⟨insert name roll b.entries, insert_ascending b.ascending⟩

/-- The book without the action of a name. -/
def erase (b : ActionBook) (name : Text) : ActionBook :=
  ⟨b.entries.filter fun e => e.1 ≠ name, b.ascending.filter _⟩

/-- Whether an action has a name. -/
def contains (b : ActionBook) (name : Text) : Bool :=
  (b.get? name).isSome

theorem find?_insert {name roll other : Text} {entries : List (Text × Text)}
    (h : entries.Pairwise fun a b => a.1 < b.1) :
    ((insert name roll entries).find? fun e => e.1 = other).map (·.2)
      = if other = name then some roll
        else (entries.find? fun e => e.1 = other).map (·.2) := by
  induction entries with
  | nil => by_cases ho : name = other <;> simp [insert, ho, eq_comm]
  | cons f rest ih =>
    obtain ⟨hf, hr⟩ := List.pairwise_cons.mp h
    simp only [insert]
    split
    · by_cases ho : name = other
      · simp [ho]
      · simp [ho, Ne.symm ho]
    · split
      · rename_i heq
        by_cases ho : name = other
        · simp [ho]
        · simp [ho, heq, Ne.symm ho]
      · rename_i hne
        by_cases ho : f.1 = other
        · have hn : other ≠ name := fun h => hne (ho.trans h)
          simp [ho, hn]
        · simp only [List.find?_cons, ho, decide_false]
          exact ih hr

/-- A saved action is found under its name, and the others as before. -/
theorem get?_put (b : ActionBook) (name roll other : Text) :
    (b.put name roll).get? other = if other = name then some roll else b.get? other :=
  find?_insert b.ascending

/-- An erased action is not found, and the others are as before. -/
theorem get?_erase (b : ActionBook) (name other : Text) :
    (b.erase name).get? other = if other = name then none else b.get? other := by
  simp only [get?, erase, List.find?_filter]
  by_cases ho : other = name
  · subst ho
    simp
  · rw [if_neg ho]
    congr 2
    funext e
    by_cases he : e.1 = other <;> simp [he, ho]

end ActionBook

end DiceBot
