import DiceBot.Proofs.Action.Replies
import DiceBot.Proofs.Flag.Command

/-!
# Names of stored actions

A name is made of letters, digits, low lines and hyphens, but the check lets one line end pass
behind it. The command that deletes an action takes the blanks off its argument, the line end too.
So an action is deleted under its own name exactly if no line end belongs to the name, and one whose
name ends in a line end stays for good.

## Main definitions

* `ActionRequest.IsPlain`: a name without a line end
* `ActionCall.deletion`: the call that deletes an action

## Main results

* `ActionRequest.isName_iff`: which texts may name an action
* `ActionDesk.exists_get?_after`: an action whose name ends in a line end stays
* `ActionDesk.isDeletable_iff_isPlain`: which stored actions can be deleted
-/

namespace DiceBot

/-! ## Names -/

theorem Text.trimmed_of_forall {t : Text} (h : ∀ c ∈ t, c.isBlank = false) : t.trimmed = t := by
  have hkeep : ∀ u : Text, (∀ c ∈ u, c.isBlank = false) → u.dropWhile CodePoint.isBlank = u := by
    intro u hu
    cases u with
    | nil => rfl
    | cons c u => exact List.dropWhile_cons_of_neg (by simp [hu c List.mem_cons_self])
  rw [trimmed, hkeep t h, hkeep t.reverse fun c hc => h c (List.mem_reverse.mp hc),
    List.reverse_reverse]

namespace ActionRequest

/-- A name without a line end behind it. -/
structure IsPlain (n : Text) : Prop where
  ne_nil : n ≠ []
  parts : ∀ c ∈ n, isNamePart c = true

variable {n : Text}

theorem not_isPlain_append_lineEnd (word : Text) :
    ¬ IsPlain (word ++ [CodePoint.ofChar '\n']) := by
  intro h
  have hpart := h.parts (CodePoint.ofChar '\n') (by simp)
  revert hpart
  decide

/-- What may name an action is a plain name, or one with a line end behind it. -/
theorem isName_iff :
    isName n = true ↔
      IsPlain n ∨ ∃ word, IsPlain word ∧ n = word ++ [CodePoint.ofChar '\n'] := by
  unfold isName
  split
  · rename_i hlast
    obtain ⟨front, rfl⟩ := List.getLast?_eq_some_iff.mp hlast
    rw [or_iff_right (not_isPlain_append_lineEnd front), List.dropLast_concat]
    simp only [Bool.and_eq_true, List.all_eq_true, decide_eq_true_eq]
    constructor
    · rintro ⟨hne, hparts⟩
      exact ⟨front, ⟨hne, hparts⟩, rfl⟩
    · rintro ⟨word, ⟨hne, hparts⟩, heq⟩
      rw [List.append_cancel_right heq]
      exact ⟨hne, hparts⟩
  · rename_i hlast
    have hnot : ¬ ∃ word, IsPlain word ∧ n = word ++ [CodePoint.ofChar '\n'] := by
      rintro ⟨word, -, rfl⟩
      exact hlast List.getLast?_concat
    rw [or_iff_left hnot]
    simp only [Bool.and_eq_true, List.all_eq_true, decide_eq_true_eq]
    exact ⟨fun h => ⟨h.1, h.2⟩, fun h => ⟨h.ne_nil, h.parts⟩⟩

/-- No part of a name is a blank. -/
theorem isBlank_of_isNamePart {c : CodePoint} (h : isNamePart c = true) : c.isBlank = false := by
  simp only [isNamePart, CodePoint.isIn, List.any_cons, List.any_nil, Bool.or_eq_true,
    Bool.and_eq_true, decide_eq_true_eq, Bool.false_eq_true, or_false] at h
  rcases h with (hrange | rfl) | rfl
  · rw [← Bool.not_eq_true]
    intro hblank
    simp only [CodePoint.isBlank, CodePoint.isIn, blankRanges, List.any_cons, List.any_nil,
      Bool.or_eq_true, Bool.and_eq_true, decide_eq_true_eq, Bool.false_eq_true, or_false] at hblank
    omega
  · decide
  · decide

theorem IsPlain.trimmed_eq (h : IsPlain n) : n.trimmed = n :=
  Text.trimmed_of_forall fun c hc => isBlank_of_isNamePart (h.parts c hc)

/-- A name with a line end is not what is left of any text without the blanks at its ends. -/
theorem trimmed_ne_of_lineEnd (arg word : Text) :
    arg.trimmed ≠ word ++ [CodePoint.ofChar '\n'] := by
  intro h
  have hlast : CodePoint.ofChar '\n' ∈ arg.trimmed.getLast? := by
    rw [h, List.getLast?_concat]
    rfl
  have hblank := Text.isBlank_of_mem_getLast?_trimmed hlast
  revert hblank
  decide

end ActionRequest

/-! ## Deletion -/

/-- The call that deletes an action, under a name that is written behind the word `delete`. -/
def ActionCall.deletion (shaker : Shaker) (author n : Text) : ActionCall where
  shaker := shaker
  author := author
  name := some "delete"
  roll := some n

namespace ActionDesk

open ActionRequest (IsPlain isName_iff)

variable {d : ActionDesk} {n r : Text}

/-- An action whose name is plain is deleted under that name. -/
theorem get?_called_deletion (hn : IsPlain n) (hencodable : n.encodable = true)
    (hget : d.store.book.get? n = some r) (shaker : Shaker) (author : Text) :
    (d.called (.deletion shaker author n)).2.store.book.get? n = none := by
  have hname : ActionRequest.isName n = true := isName_iff.mpr (.inl hn)
  have hrequest : ActionRequest.ofArguments (some (Text.ofString "delete")) (some n) =
      .delete n :=
    ActionRequest.ofArguments_eq_delete_iff.mpr ⟨rfl, n, rfl, hn.ne_nil, hn.trimmed_eq.symm⟩
  have hcontains : d.store.book.contains n = true := by
    rw [ActionBook.contains, hget]
    rfl
  have hspace := ActionRequest.notMem_space_of_isName hname
  rw [called_of_delete hrequest, (delete_of_contains _ hspace hencodable hcontains).2]
  exact (ActionBook.get?_erase _ _ _).trans (if_pos rfl)

/-- No call deletes an action whose name ends in a line end. -/
theorem exists_get?_called (c : ActionCall) (word : Text)
    (hget : ∃ r, d.store.book.get? (word ++ [CodePoint.ofChar '\n']) = some r) :
    ∃ r, (d.called c).2.store.book.get? (word ++ [CodePoint.ofChar '\n']) = some r := by
  cases d.does c with
  | @save n arg _ _ _ _ _ _ _ hstore =>
    rw [hstore, ActionBook.get?_put]
    split
    · exact ⟨_, rfl⟩
    · exact hget
  | @delete arg _ _ _ _ hstore =>
    rw [hstore, ActionBook.get?_erase,
      if_neg (ActionRequest.trimmed_ne_of_lineEnd arg word).symm]
    exact hget
  | nothing _ hstore => rwa [hstore]

theorem after_append (d : ActionDesk) (calls more : List ActionCall) :
    d.after (calls ++ more) = (d.after calls).after more :=
  List.foldl_append

/-- An action whose name ends in a line end stays, whatever is called. -/
theorem exists_get?_after {word : Text} (calls : List ActionCall)
    (hget : ∃ r, d.store.book.get? (word ++ [CodePoint.ofChar '\n']) = some r) :
    ∃ r, (d.after calls).store.book.get? (word ++ [CodePoint.ofChar '\n']) = some r := by
  induction calls generalizing d with
  | nil => exact hget
  | cons c rest ih => exact ih (exists_get?_called c word hget)

/-! ## Stored roll commands -/

/-- Every stored roll command is a roll. -/
def HoldsRolls (d : ActionDesk) : Prop :=
  ∀ n r, d.store.book.get? n = some r → r.isRoll = true

theorem holdsRolls_opened (index : Nat) : (opened index).HoldsRolls :=
  nofun

theorem HoldsRolls.called (h : d.HoldsRolls) (c : ActionCall) : (d.called c).2.HoldsRolls := by
  intro n r hget
  cases d.does c with
  | save _ _ _ _ hroll _ _ hstore =>
    rw [hstore, ActionBook.get?_put] at hget
    split at hget
    · cases hget
      exact hroll
    · exact h n r hget
  | delete _ _ _ _ hstore =>
    rw [hstore, ActionBook.get?_erase] at hget
    split at hget
    · cases hget
    · exact h n r hget
  | nothing _ hstore =>
    rw [hstore] at hget
    exact h n r hget

theorem HoldsRolls.after (h : d.HoldsRolls) (calls : List ActionCall) :
    (d.after calls).HoldsRolls := by
  induction calls generalizing d with
  | nil => exact h
  | cons c rest ih => exact ih (h.called c)

/-! ## What can be deleted -/

/-- A stored action can be deleted: to delete it under its name removes it, whoever calls. -/
def IsDeletable (d : ActionDesk) (n : Text) : Prop :=
  ∀ shaker author, (d.called (.deletion shaker author n)).2.store.book.get? n = none

/-- **A stored action can be deleted exactly if no line end belongs to its name.** Every stored name
is plain but for such a line end and is not the word `delete`, and every stored roll command is a
roll; and what cannot be deleted under its name is not deleted by any calls. -/
theorem isDeletable_iff_isPlain (index : Nat) (calls : List ActionCall)
    (hget : ((opened index).after calls).store.book.get? n = some r) :
    n ≠ "delete" ∧ r.isRoll = true ∧
      (IsPlain n ∨ ∃ word, IsPlain word ∧ n = word ++ [CodePoint.ofChar '\n']) ∧
      (((opened index).after calls).IsDeletable n ↔ IsPlain n) ∧
      ((∃ more, ((opened index).after (calls ++ more)).store.book.get? n = none) ↔ IsPlain n) := by
  obtain ⟨hdelete, hname, hencodable, -⟩ :=
    (isOrderly_opened index).after calls n r hget
  have hroll := (holdsRolls_opened index).after calls n r hget
  refine ⟨hdelete, hroll, isName_iff.mp hname, ?_⟩
  rcases isName_iff.mp hname with hplain | ⟨word, -, rfl⟩
  · have hdeletable : ((opened index).after calls).IsDeletable n :=
      get?_called_deletion hplain hencodable hget
    refine ⟨iff_of_true hdeletable hplain, iff_of_true ?_ hplain⟩
    refine ⟨[.deletion (.ofStream id) [] n], ?_⟩
    rw [after_append]
    exact hdeletable _ _
  · have hplain := ActionRequest.not_isPlain_append_lineEnd word
    refine ⟨iff_of_false (fun h => ?_) hplain, iff_of_false ?_ hplain⟩
    · obtain ⟨r', hr'⟩ := exists_get?_called (.deletion (.ofStream id) [] _) word ⟨r, hget⟩
      rw [h] at hr'
      cases hr'
    · rintro ⟨more, hnone⟩
      obtain ⟨r', hr'⟩ := exists_get?_after more ⟨r, hget⟩
      rw [after_append, hr'] at hnone
      cases hnone

/-- Some calls at a desk: an action is created, another one is created under a name with a line
end, and the first one is updated. -/
def fireballCalls : List ActionCall :=
  [⟨.ofStream id, "tester", some "fire-ball", some "8d6"⟩,
   ⟨.ofStream id, "tester", some "a\n", some "d6"⟩,
   ⟨.ofStream id, "tester", some "fire-ball", some " 10d6 "⟩]

theorem isDeletable_fireball :
    ((opened 0).after fireballCalls).store.book.get? "fire-ball" = some "10d6" ∧
      ((opened 0).after fireballCalls).IsDeletable "fire-ball" := by
  have hget : ((opened 0).after fireballCalls).store.book.get? "fire-ball" =
      some (Text.ofString "10d6") := by
    decide +kernel
  have hplain : IsPlain "fire-ball" := ⟨by decide, by decide⟩
  exact ⟨hget, (isDeletable_iff_isPlain 0 fireballCalls hget).2.2.2.1.mpr hplain⟩

/-- An action whose name ends in a line end is created and not deleted under its name. -/
theorem not_isDeletable_of_lineEnd :
    ((opened 0).after fireballCalls).store.book.get? "a\n" = some "d6" ∧ ¬ IsPlain "a\n" ∧
      ¬ ((opened 0).after fireballCalls).IsDeletable "a\n" := by
  refine ⟨by decide +kernel, ActionRequest.not_isPlain_append_lineEnd "a", fun h => ?_⟩
  have hget : (((opened 0).after fireballCalls).called
      (.deletion (.ofStream id) "tester" "a\n")).2.store.book.get? "a\n" =
        some (Text.ofString "d6") := by
    decide +kernel
  rw [h] at hget
  cases hget

end ActionDesk

end DiceBot
