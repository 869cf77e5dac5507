import DiceBot.Action.Command
import DiceBot.Proofs.Dice.Boundary

/-!
# What the action command reports

The action command reports three deeds: that an action was created, that it was updated, and that
it was deleted. Any other reply, a rolled action included, is told apart from these reports by its
beginning or its end, and it leaves the store as it is. So after any calls on a store that was empty
at first, the reports are true and complete.

## Main definitions

* `ActionReport`: the three reports
* `ActionCall`: a call of the command
* `ActionDesk.after`: the desk after some calls
* `ActionCall.IsTruthful`: a call reports what it does

## Main results

* `ActionDesk.does`: what a call does
* `ActionDesk.IsOrderly.after`: what the names and roll commands of stored actions are like
* `ActionCall.isTruthful`: every call after any calls is truthful
-/

namespace DiceBot

/-! ## Requests -/

namespace ActionRequest

variable {name roll : Option Text} {n r : Text}

theorem eq_some_of_getD_ne_nil {arg : Option Text} (h : arg.getD [] ≠ []) :
    arg = some (arg.getD []) := by
  cases arg with
  | none => exact absurd rfl h
  | some t => rfl

theorem ofArguments_eq_save_iff :
    ofArguments name roll = .save n r ↔ n ≠ [] ∧ n ≠ "delete" ∧ isName n = true ∧
      name = some n ∧ ∃ arg, roll = some arg ∧ arg ≠ [] ∧ r = arg.trimmed := by
  constructor
  · intro h
    unfold ofArguments at h
    dsimp only at h
    split at h
    · cases h
    split at h
    · cases h
    split at h
    · cases h
    split at h
    · rename_i hne hdelete hname hroll
      cases h
      have hname' := eq_some_of_getD_ne_nil hne
      exact ⟨hne, fun he => hdelete ⟨he, hroll⟩, by simpa using hname, hname', _,
        eq_some_of_getD_ne_nil hroll, hroll, rfl⟩
    · cases h
  · rintro ⟨hne, hdelete, hname, rfl, arg, rfl, harg, rfl⟩
    simp [ofArguments, hne, hdelete, hname, harg]

theorem ofArguments_eq_delete_iff :
    ofArguments name roll = .delete n ↔ name = some (Text.ofString "delete") ∧
      ∃ arg, roll = some arg ∧ arg ≠ [] ∧ n = arg.trimmed := by
  constructor
  · intro h
    unfold ofArguments at h
    dsimp only at h
    split at h
    · cases h
    split at h
    · rename_i hne hdelete
      cases h
      have hname := eq_some_of_getD_ne_nil hne
      rw [hdelete.1] at hname
      exact ⟨hname, _, eq_some_of_getD_ne_nil hdelete.2, hdelete.2, rfl⟩
    split at h
    · cases h
    split at h
    · cases h
    · cases h
  · rintro ⟨rfl, arg, rfl, harg, rfl⟩
    have hne : Text.ofString "delete" ≠ [] := by decide
    simp [ofArguments, hne, harg]

theorem isNamePart_or_of_isName (h : isName n = true) :
    ∀ c ∈ n, isNamePart c = true ∨ c = '\n' := by
  intro c hc
  unfold isName at h
  split at h
  · rename_i hlast
    simp only [Bool.and_eq_true, List.all_eq_true] at h
    rw [← List.dropLast_append_getLast? _ hlast] at hc
    rcases List.mem_append.mp hc with hc | hc
    · exact .inl (h.2 c hc)
    · exact .inr (List.mem_singleton.mp hc)
  · simp only [Bool.and_eq_true, List.all_eq_true] at h
    exact .inl (h.2 c hc)

/-- No name holds a blank, and none is empty. -/
theorem notMem_space_of_isName (h : isName n = true) : CodePoint.ofChar ' ' ∉ n := by
  intro hspace
  rcases isNamePart_or_of_isName h _ hspace with hpart | hend
  · exact absurd hpart (by decide)
  · exact absurd hend (by decide)

theorem ne_nil_of_isName (h : isName n = true) : n ≠ [] := by
  rintro rfl
  exact absurd h (by decide)

end ActionRequest

/-! ## Reports -/

/-- What the command reports about a stored action. -/
inductive ActionReport where
  /-- It was created. -/
  | created (name : Text)
  /-- It was updated. -/
  | updated (name : Text)
  /-- It was deleted. -/
  | deleted
deriving DecidableEq

namespace ActionReport

/-- The wording of a report. -/
def text : ActionReport → Text
  | created name => "Action " ++ ActionDesk.nameText name ++ " created."
  | updated name => "Action " ++ ActionDesk.nameText name ++ " updated."
  | deleted => "Action deleted."

/-- The report of a saved action, which was there before or not. -/
def saved : Bool → Text → ActionReport
  | true, name => updated name
  | false, name => created name

theorem saved_injective {existed existed' : Bool} {name name' : Text}
    (h : saved existed name = saved existed' name') : existed = existed' ∧ name = name' := by
  cases existed with
  | true =>
    cases existed' with
    | true =>
      cases h
      exact ⟨rfl, rfl⟩
    | false => cases h
  | false =>
    cases existed' with
    | true => cases h
    | false =>
      cases h
      exact ⟨rfl, rfl⟩

theorem saved_ne_deleted (existed : Bool) (name : Text) : saved existed name ≠ deleted := by
  cases existed with
  | true => exact nofun
  | false => exact nofun

/-- Whether a reaction is a report. -/
def IsIn (report : ActionReport) (r : Reaction) : Prop :=
  r.messages = [.reply report.text]

instance (report : ActionReport) (r : Reaction) : Decidable (report.IsIn r) :=
  inferInstanceAs (Decidable (r.messages = [.reply report.text]))

/-- The last six code points of a text, backwards. -/
def ending (t : Text) : Text :=
  t.reverse.take 6

theorem ending_append (t : Text) {u : Text} (h : 6 ≤ u.length) : ending (t ++ u) = ending u := by
  rw [ending, ending, List.reverse_append, List.take_append_of_le_length]
  rwa [List.length_reverse]

/-- The reports begin alike, and each kind has an end of its own. -/
theorem text_ends (report : ActionReport) :
    report.text.head? = some (CodePoint.ofChar 'A') ∧
      ending report.text = match report with
        | created _ => Text.ofString ".detae"
        | updated _ => Text.ofString ".detad"
        | deleted => Text.ofString ".detel" := by
  cases report with
  | created name => exact ⟨rfl, ending_append _ (by decide)⟩
  | updated name => exact ⟨rfl, ending_append _ (by decide)⟩
  | deleted => exact ⟨rfl, rfl⟩

theorem text_injective {report report' : ActionReport} (h : report.text = report'.text) :
    report = report' := by
  have hending := congrArg ending h
  rw [(text_ends report).2, (text_ends report').2] at hending
  have hname {name name' behind : Text}
      (h : "Action " ++ ActionDesk.nameText name ++ behind =
        "Action " ++ ActionDesk.nameText name' ++ behind) : name = name' := by
    have hquoted := List.append_cancel_left (List.append_cancel_right h)
    exact List.append_cancel_left (List.append_cancel_right hquoted)
  have hdistinct : Text.ofString ".detae" ≠ ".detad" ∧ Text.ofString ".detae" ≠ ".detel" ∧
      Text.ofString ".detad" ≠ ".detel" := by
    decide
  cases report with
  | created name =>
    cases report' with
    | created name' => exact congrArg created (hname h)
    | updated name' => exact absurd hending hdistinct.1
    | deleted => exact absurd hending hdistinct.2.1
  | updated name =>
    cases report' with
    | created name' => exact absurd hending.symm hdistinct.1
    | updated name' => exact congrArg updated (hname h)
    | deleted => exact absurd hending hdistinct.2.2
  | deleted =>
    cases report' with
    | created name' => exact absurd hending.symm hdistinct.2.1
    | updated name' => exact absurd hending.symm hdistinct.2.2
    | deleted => rfl

/-- A reaction is one report at most. -/
theorem IsIn.unique {report report' : ActionReport} {r : Reaction} (h : report.IsIn r)
    (h' : report'.IsIn r) : report = report' := by
  have hmessages : [Message.reply report.text] = [.reply report'.text] := h.symm.trans h'
  have htext : report.text = report'.text := by
    simpa [Message.reply] using hmessages
  exact text_injective htext

end ActionReport

/-- Whether a reaction is none of the reports. -/
def Reaction.IsSilent (r : Reaction) : Prop :=
  ∀ report : ActionReport, ¬ report.IsIn r

namespace Reaction

variable {t : Text}

theorem isSilent_of_messages_eq_nil {r : Reaction} (h : r.messages = []) : r.IsSilent := by
  intro report hreport
  rw [ActionReport.IsIn, h] at hreport
  cases hreport

theorem isSilent_of_text {r : Reaction} (hr : r.messages = [.reply t])
    (h : ∀ report : ActionReport, t ≠ report.text) : r.IsSilent := by
  intro report hreport
  have hmessages : [Message.reply t] = [.reply report.text] := hr.symm.trans hreport
  refine h report ?_
  simpa [Message.reply] using hmessages

/-- What begins otherwise is no report. -/
theorem isSilent_of_head? {r : Reaction} (hr : r.messages = [.reply t])
    (h : t.head? ≠ some (CodePoint.ofChar 'A')) : r.IsSilent := by
  refine isSilent_of_text hr fun report ht => h ?_
  rw [ht]
  exact report.text_ends.1

/-- What ends otherwise is no report. -/
theorem isSilent_of_ending {r : Reaction} (hr : r.messages = [.reply t])
    (h : ∀ mark ∈ [Text.ofString ".detae", Text.ofString ".detad", Text.ofString ".detel"],
      ActionReport.ending t ≠ mark) : r.IsSilent := by
  refine isSilent_of_text hr fun report ht => h (ActionReport.ending t) ?_ rfl
  rw [ht, report.text_ends.2]
  cases report with
  | created name => exact List.mem_cons_self
  | updated name => exact List.mem_cons_of_mem _ List.mem_cons_self
  | deleted => exact List.mem_cons_of_mem _ (List.mem_cons_of_mem _ List.mem_cons_self)

end Reaction

/-! ## Rolled actions -/

/-- A trace ends with an asterisk. -/
theorem Outcome.getLast?_of_trace {o : Outcome} {t : Text} (h : o.trace = .ok t) :
    t.getLast? = some (CodePoint.ofChar '*') := by
  obtain ⟨lines, -, h⟩ := bind_eq_ok_iff.mp h
  cases h
  have hmark : Text.ofString "**" = [CodePoint.ofChar '*'] ++ [CodePoint.ofChar '*'] := rfl
  rw [Text.joined_concat, ← List.append_assoc, hmark, ← List.append_assoc, List.getLast?_concat]

/-- What is answered to a roll ends with an asterisk or begins with an E. -/
theorem rollResponse_ends {t answer : Text} {shaker : Shaker} {index : Nat}
    (h : (rollResponse t shaker index).1.answer = .ok answer) :
    answer.getLast? = some (CodePoint.ofChar '*') ∨
      answer.head? = some (CodePoint.ofChar 'E') := by
  rw [rollResponse_answer] at h
  split at h
  · rename_i trace htrace
    cases h
    obtain ⟨o, -, ho⟩ := bind_eq_ok_iff.mp htrace
    exact .inl (Outcome.getLast?_of_trace ho)
  · rename_i fault hfault
    right
    cases fault with
    | numeralTooLong => cases h
    | totalTooLarge => cases h
    | tooManyDice | tooDeep | malformed | unevaluable =>
      cases h
      rfl

/-! ## Reactions -/

theorem ActionBook.erase_of_get?_eq_none {b : ActionBook} {name : Text} (h : b.get? name = none) :
    b.erase name = b := by
  obtain ⟨entries, hentries⟩ := b
  have hnone : entries.find? (fun e => e.1 = name) = none := Option.map_eq_none_iff.mp h
  have hfilter : entries.filter (fun e => e.1 ≠ name) = entries := by
    rw [List.filter_eq_self]
    intro e he
    simpa using List.find?_eq_none.mp hnone e he
  simp only [erase, hfilter]

namespace ActionDesk

variable {d : ActionDesk} (author : Text) {n r : Text}

/-- To roll an action reports nothing and leaves the store as it is. -/
theorem isSilent_use (d : ActionDesk) (shaker : Shaker) (n : Text) :
    (d.use shaker n).1.IsSilent ∧ (d.use shaker n).2.store = d.store := by
  unfold use
  split
  · exact ⟨Reaction.isSilent_of_messages_eq_nil rfl, rfl⟩
  · refine ⟨Reaction.isSilent_of_head? rfl ?_, rfl⟩
    have hhead : (CodePoint.ofChar 'N') ≠ CodePoint.ofChar 'A' := by decide
    exact fun h => hhead (Option.some.inj h)
  · rename_i roll hroll
    dsimp only
    split
    · exact ⟨Reaction.isSilent_of_messages_eq_nil rfl, rfl⟩
    · rename_i answer hanswer
      refine ⟨?_, rfl⟩
      rcases rollResponse_ends hanswer with hlast | hhead
      · obtain ⟨front, rfl⟩ := List.getLast?_eq_some_iff.mp hlast
        refine Reaction.isSilent_of_ending rfl ?_
        have hending : (ActionReport.ending (front ++ [CodePoint.ofChar '*'])).head? =
            some (CodePoint.ofChar '*') := by
          simp [ActionReport.ending]
        intro mark hmark h
        rw [h] at hending
        simp only [List.mem_cons, List.not_mem_nil, or_false] at hmark
        rcases hmark with rfl | rfl | rfl
        all_goals exact absurd hending (by decide)
      · refine Reaction.isSilent_of_head? rfl ?_
        rw [hhead]
        decide

/-- To delete an action that is there is reported. -/
theorem delete_of_contains (hspace : CodePoint.ofChar ' ' ∉ n) (hn : n.encodable = true)
    (hcontains : d.store.book.contains n = true) :
    ActionReport.deleted.IsIn (d.delete author n).1 ∧
      (d.delete author n).2.store = { d.store with book := d.store.book.erase n } := by
  have hdelete : d.store.delete n =
      .ok (true, { d.store with book := d.store.book.erase n }) := by
    rw [ActionStore.delete, if_pos hn, hcontains]
  rw [delete, if_neg (by simpa using hspace), hdelete]
  exact ⟨rfl, rfl⟩

/-- To delete anything else reports nothing and leaves the store as it is. -/
theorem isSilent_delete
    (h : ¬ (CodePoint.ofChar ' ' ∉ n ∧ n.encodable = true ∧ d.store.book.contains n = true)) :
    (d.delete author n).1.IsSilent ∧ (d.delete author n).2.store = d.store := by
  unfold delete
  split
  · exact ⟨Reaction.isSilent_of_head? rfl (by decide), rfl⟩
  rename_i hspace
  by_cases hn : n.encodable = true
  · have hcontains : d.store.book.contains n = false := by
      rw [← Bool.not_eq_true]
      intro hcontains
      exact h ⟨by simpa using hspace, hn, hcontains⟩
    have hnone : d.store.book.get? n = none := by
      rwa [ActionBook.contains, Option.isSome_eq_false_iff, Option.isNone_iff_eq_none] at hcontains
    have hdelete : d.store.delete n = .ok (false, d.store) := by
      rw [ActionStore.delete, if_pos hn, hcontains, ActionBook.erase_of_get?_eq_none hnone]
    rw [hdelete]
    refine ⟨Reaction.isSilent_of_ending rfl ?_, rfl⟩
    rw [ActionReport.ending_append _ (by decide)]
    decide
  · have hdelete : d.store.delete n = .error .unencodable := if_neg hn
    rw [hdelete]
    exact ⟨Reaction.isSilent_of_messages_eq_nil rfl, rfl⟩

/-- To save a good roll command is reported. -/
theorem save_of_isRoll (hr : r.isRoll = true)
    (hencodable : n.encodable = true ∧ r.encodable = true) :
    (ActionReport.saved (d.store.book.contains n) n).IsIn (d.save author n r).1 ∧
      (d.save author n r).2.store = { d.store with book := d.store.book.put n r } := by
  have hput : d.store.put n r =
      .ok (d.store.book.contains n, { d.store with book := d.store.book.put n r }) :=
    if_pos hencodable
  have hnot : ¬ (!r.isRoll) = true := by simp [hr]
  rw [save, if_neg hnot, hput]
  refine ⟨?_, rfl⟩
  cases d.store.book.contains n with
  | true =>
    rw [ActionReport.saved, ActionReport.IsIn, ActionReport.text]
    simp [Text.ofString]
  | false =>
    rw [ActionReport.saved, ActionReport.IsIn, ActionReport.text]
    simp [Text.ofString]

/-- To save anything else reports nothing and leaves the store as it is. -/
theorem isSilent_save (h : ¬ (r.isRoll = true ∧ n.encodable = true ∧ r.encodable = true)) :
    (d.save author n r).1.IsSilent ∧ (d.save author n r).2.store = d.store := by
  unfold save
  split
  · exact ⟨Reaction.isSilent_of_head? rfl (by decide), rfl⟩
  · rename_i hr
    have hput : d.store.put n r = .error .unencodable :=
      if_neg fun hencodable => h ⟨by simpa using hr, hencodable⟩
    rw [hput]
    exact ⟨Reaction.isSilent_of_messages_eq_nil rfl, rfl⟩

end ActionDesk

/-! ## Calls -/

/-- A call of the action command. -/
structure ActionCall where
  /-- The dice, in case an action is rolled. -/
  shaker : Shaker
  /-- Who calls. -/
  author : Text
  /-- The first argument, if there is one. -/
  name : Option Text
  /-- The second argument, if there is one. -/
  roll : Option Text

namespace ActionDesk

/-- A desk whose store is empty. -/
def opened (index : Nat) : ActionDesk where
  store := ActionStore.empty
  index := index

/-- The reaction to a call. -/
def called (d : ActionDesk) (c : ActionCall) : Reaction × ActionDesk :=
  d.act c.shaker c.author c.name c.roll

/-- The desk after some calls. -/
def after (d : ActionDesk) (calls : List ActionCall) : ActionDesk :=
  calls.foldl (fun d c => (d.called c).2) d

/-- What a call does: it saves an action, deletes one, or reports nothing and leaves the store as
it is. -/
inductive Does (d : ActionDesk) (c : ActionCall) : Prop
  | save {n arg : Text} (hne : n ≠ "delete") (hname : ActionRequest.isName n = true)
      (hn : c.name = some n) (harg : c.roll = some arg) (hroll : arg.trimmed.isRoll = true)
      (hencodable : n.encodable = true ∧ arg.trimmed.encodable = true)
      (hreport : (ActionReport.saved (d.store.book.contains n) n).IsIn (d.called c).1)
      (hstore : (d.called c).2.store =
        { d.store with book := d.store.book.put n arg.trimmed }) : Does d c
  | delete {arg : Text} (hn : c.name = some (Text.ofString "delete")) (harg : c.roll = some arg)
      (hcontains : d.store.book.contains arg.trimmed = true)
      (hreport : ActionReport.deleted.IsIn (d.called c).1)
      (hstore : (d.called c).2.store =
        { d.store with book := d.store.book.erase arg.trimmed }) : Does d c
  | nothing (hsilent : (d.called c).1.IsSilent) (hstore : (d.called c).2.store = d.store) : Does d c

variable {d : ActionDesk} {c : ActionCall} {n r : Text}

/-- A call that asks to save a roll command is answered accordingly. -/
theorem called_of_save (h : ActionRequest.ofArguments c.name c.roll = .save n r) :
    d.called c = d.save c.author n r := by
  rw [called, act, h]

/-- A call that asks to delete an action is answered accordingly. -/
theorem called_of_delete (h : ActionRequest.ofArguments c.name c.roll = .delete n) :
    d.called c = d.delete c.author n := by
  rw [called, act, h]

theorem does (d : ActionDesk) (c : ActionCall) : d.Does c := by
  cases hrequest : ActionRequest.ofArguments c.name c.roll with
  | usage =>
    have hcalled : d.called c = (.say (.reply actionUsage), d) := by rw [called, act, hrequest]
    refine .nothing ?_ (by rw [hcalled])
    rw [hcalled]
    exact Reaction.isSilent_of_head? rfl (by decide)
  | badName =>
    have hcalled : d.called c = (.say (.reply "Invalid action name"), d) := by
      rw [called, act, hrequest]
    refine .nothing ?_ (by rw [hcalled])
    rw [hcalled]
    exact Reaction.isSilent_of_head? rfl (by decide)
  | use n =>
    have hcalled : d.called c = d.use c.shaker n := by rw [called, act, hrequest]
    obtain ⟨hsilent, hstore⟩ := d.isSilent_use c.shaker n
    rw [← hcalled] at hsilent hstore
    exact .nothing hsilent hstore
  | delete n =>
    have hcalled : d.called c = d.delete c.author n := called_of_delete hrequest
    by_cases h : CodePoint.ofChar ' ' ∉ n ∧ n.encodable = true ∧ d.store.book.contains n = true
    · obtain ⟨hspace, hn, hcontains⟩ := h
      obtain ⟨hreport, hstore⟩ := delete_of_contains c.author hspace hn hcontains
      obtain ⟨hname, arg, harg, -, rfl⟩ := ActionRequest.ofArguments_eq_delete_iff.mp hrequest
      rw [← hcalled] at hreport hstore
      exact .delete hname harg hcontains hreport hstore
    · obtain ⟨hsilent, hstore⟩ := isSilent_delete c.author h
      rw [← hcalled] at hsilent hstore
      exact .nothing hsilent hstore
  | save n r =>
    have hcalled : d.called c = d.save c.author n r := called_of_save hrequest
    by_cases h : r.isRoll = true ∧ n.encodable = true ∧ r.encodable = true
    · obtain ⟨hroll, hencodable⟩ := h
      obtain ⟨hreport, hstore⟩ := save_of_isRoll c.author hroll hencodable
      obtain ⟨-, hne, hname, hn, arg, harg, -, rfl⟩ :=
        ActionRequest.ofArguments_eq_save_iff.mp hrequest
      rw [← hcalled] at hreport hstore
      exact .save hne hname hn harg hroll hencodable hreport hstore
    · obtain ⟨hsilent, hstore⟩ := isSilent_save c.author h
      rw [← hcalled] at hsilent hstore
      exact .nothing hsilent hstore

/-- What the names and the roll commands of stored actions are like. -/
def IsOrderly (d : ActionDesk) : Prop :=
  ∀ n r, d.store.book.get? n = some r → n ≠ "delete" ∧ ActionRequest.isName n = true ∧
    n.encodable = true ∧ r.encodable = true

theorem isOrderly_opened (index : Nat) : (opened index).IsOrderly :=
  nofun

theorem IsOrderly.called (h : d.IsOrderly) (c : ActionCall) : (d.called c).2.IsOrderly := by
  intro n r hget
  cases d.does c with
  | save hne hname _ _ _ hencodable _ hstore =>
    rw [hstore, ActionBook.get?_put] at hget
    split at hget
    · rename_i heq
      cases hget
      rw [heq]
      exact ⟨hne, hname, hencodable⟩
    · exact h n r hget
  | delete _ _ _ _ hstore =>
    rw [hstore, ActionBook.get?_erase] at hget
    split at hget
    · cases hget
    · exact h n r hget
  | nothing _ hstore =>
    rw [hstore] at hget
    exact h n r hget

theorem IsOrderly.after (h : d.IsOrderly) (calls : List ActionCall) :
    (d.after calls).IsOrderly := by
  induction calls generalizing d with
  | nil => exact h
  | cons c rest ih => exact ih (h.called c)

end ActionDesk

namespace ActionCall

/-- Whether a call has saved its second argument, which is a good roll command between blanks,
under the name that is its first. -/
def HasSaved (c : ActionCall) (d d' : ActionDesk) (n : Text) : Prop :=
  c.name = some n ∧ ∃ arg, c.roll = some arg ∧ arg.trimmed.isRoll = true ∧
    d'.store = { d.store with book := d.store.book.put n arg.trimmed }

/-- Whether a call has deleted the action whose name is its second argument between blanks. -/
def HasDeleted (c : ActionCall) (d d' : ActionDesk) : Prop :=
  c.name = some (Text.ofString "delete") ∧ ∃ arg, c.roll = some arg ∧
    d.store.book.contains arg.trimmed = true ∧ d'.store.book.contains arg.trimmed = false

/-- A call at a desk reports what it does, and does nothing that it does not report. -/
structure IsTruthful (c : ActionCall) (d : ActionDesk) : Prop where
  created : ∀ n, (ActionReport.created n).IsIn (d.called c).1 ↔
    d.store.book.contains n = false ∧ c.HasSaved d (d.called c).2 n
  updated : ∀ n, (ActionReport.updated n).IsIn (d.called c).1 ↔
    d.store.book.contains n = true ∧ c.HasSaved d (d.called c).2 n
  deleted : ActionReport.deleted.IsIn (d.called c).1 ↔ c.HasDeleted d (d.called c).2
  erased : ActionReport.deleted.IsIn (d.called c).1 →
    ∃ n, (d.called c).2.store = { d.store with book := d.store.book.erase n }
  unchanged : (d.called c).1.IsSilent → (d.called c).2.store = d.store

variable {d : ActionDesk} {c : ActionCall}

/-- A call reports to have saved an action exactly if it has. -/
theorem isIn_saved_iff (horderly : d.IsOrderly) (existed : Bool) (n : Text) :
    (ActionReport.saved existed n).IsIn (d.called c).1 ↔
      d.store.book.contains n = existed ∧ c.HasSaved d (d.called c).2 n := by
  constructor
  · intro h
    cases d.does c with
    | save _ _ hn harg hroll _ hreport hstore =>
      obtain ⟨rfl, rfl⟩ := ActionReport.saved_injective (h.unique hreport)
      exact ⟨rfl, hn, _, harg, hroll, hstore⟩
    | delete _ _ _ hreport _ =>
      exact absurd (h.unique hreport) (ActionReport.saved_ne_deleted existed n)
    | nothing hsilent _ => exact absurd h (hsilent _)
  · rintro ⟨rfl, hn, arg, harg, hroll, hstore⟩
    have hget : (d.called c).2.store.book.get? n = some arg.trimmed := by
      rw [hstore, ActionBook.get?_put, if_pos rfl]
    obtain ⟨hne, hname, hencodable⟩ := horderly.called c n _ hget
    have hnil : arg ≠ [] := by
      rintro rfl
      exact absurd hroll (by decide +kernel)
    have hrequest : ActionRequest.ofArguments c.name c.roll = .save n arg.trimmed :=
      ActionRequest.ofArguments_eq_save_iff.mpr ⟨ActionRequest.ne_nil_of_isName hname, hne, hname,
        hn, arg, harg, hnil, rfl⟩
    rw [ActionDesk.called_of_save hrequest]
    exact (ActionDesk.save_of_isRoll c.author hroll hencodable).1

/-- A call reports to have deleted an action exactly if it has. -/
theorem isIn_deleted_iff (horderly : d.IsOrderly) :
    ActionReport.deleted.IsIn (d.called c).1 ↔ c.HasDeleted d (d.called c).2 := by
  constructor
  · intro h
    cases d.does c with
    | save _ _ _ _ _ _ hreport _ =>
      exact absurd (h.unique hreport).symm (ActionReport.saved_ne_deleted _ _)
    | @delete arg hn harg hcontains _ hstore =>
      refine ⟨hn, arg, harg, hcontains, ?_⟩
      rw [hstore, ActionBook.contains, ActionBook.get?_erase, if_pos rfl]
      rfl
    | nothing hsilent _ => exact absurd h (hsilent _)
  · rintro ⟨hn, arg, harg, hcontains, -⟩
    obtain ⟨r, hget⟩ := Option.isSome_iff_exists.mp hcontains
    obtain ⟨-, hname, hencodable, -⟩ := horderly arg.trimmed r hget
    have hnil : arg ≠ [] := by
      rintro rfl
      exact absurd hname (by decide)
    have hrequest : ActionRequest.ofArguments c.name c.roll = .delete arg.trimmed :=
      ActionRequest.ofArguments_eq_delete_iff.mpr ⟨hn, arg, harg, hnil, rfl⟩
    have hspace := ActionRequest.notMem_space_of_isName hname
    rw [ActionDesk.called_of_delete hrequest]
    exact (ActionDesk.delete_of_contains c.author hspace hencodable hcontains).1

/-- A call that reports to have deleted an action has changed nothing else. -/
theorem exists_erase_of_isIn_deleted (h : ActionReport.deleted.IsIn (d.called c).1) :
    ∃ n, (d.called c).2.store = { d.store with book := d.store.book.erase n } := by
  cases d.does c with
  | save _ _ _ _ _ _ hreport _ =>
    exact absurd (h.unique hreport).symm (ActionReport.saved_ne_deleted _ _)
  | delete _ _ _ _ hstore => exact ⟨_, hstore⟩
  | nothing hsilent _ => exact absurd h (hsilent _)

/-- A call that reports nothing has changed nothing. -/
theorem store_eq_of_isSilent (h : (d.called c).1.IsSilent) :
    (d.called c).2.store = d.store := by
  cases d.does c with
  | save _ _ _ _ _ _ hreport _ => exact absurd hreport (h _)
  | delete _ _ _ hreport _ => exact absurd hreport (h _)
  | nothing _ hstore => exact hstore

/-- Every call after any calls on an empty store is truthful. -/
theorem isTruthful (index : Nat) (calls : List ActionCall) (c : ActionCall) :
    c.IsTruthful ((ActionDesk.opened index).after calls) := by
  have horderly := (ActionDesk.isOrderly_opened index).after calls
  constructor
  case created => exact isIn_saved_iff horderly false
  case updated => exact isIn_saved_iff horderly true
  case deleted => exact isIn_deleted_iff horderly
  case erased => exact exists_erase_of_isIn_deleted
  case unchanged => exact store_eq_of_isSilent

/-- A call that saves a roll command as an action. -/
def saving (roll : Text) : ActionCall where
  shaker := .ofStream id
  author := "ada"
  name := some "fireball"
  roll := some roll

/-- A call that deletes this action. -/
def deleting : ActionCall where
  shaker := .ofStream id
  author := "ada"
  name := some "delete"
  roll := some "fireball"

/-- An action is created, updated and deleted, and each is reported. -/
theorem isTruthful_of_fireball :
    let empty := ActionDesk.opened 0
    let created := empty.after [saving "8d6"]
    let updated := empty.after [saving "8d6", saving " 9d6 "]
    ((ActionReport.created "fireball").IsIn (empty.called (saving "8d6")).1 ∧
      (saving "8d6").HasSaved empty created "fireball") ∧
    ((ActionReport.updated "fireball").IsIn (created.called (saving " 9d6 ")).1 ∧
      (saving " 9d6 ").HasSaved created updated "fireball") ∧
    ActionReport.deleted.IsIn (updated.called deleting).1 ∧
      deleting.HasDeleted updated (updated.called deleting).2 := by
  intro empty created updated
  have hcreated : (ActionReport.created "fireball").IsIn (empty.called (saving "8d6")).1 := by
    decide +kernel
  have hupdated : (ActionReport.updated "fireball").IsIn (created.called (saving " 9d6 ")).1 := by
    decide +kernel
  have hdeleted : ActionReport.deleted.IsIn (updated.called deleting).1 := by
    decide +kernel
  have hfirst := isTruthful 0 [] (saving "8d6")
  have hsecond := isTruthful 0 [saving "8d6"] (saving " 9d6 ")
  have hthird := isTruthful 0 [saving "8d6", saving " 9d6 "] deleting
  exact ⟨⟨hcreated, ((hfirst.created _).mp hcreated).2⟩,
    ⟨hupdated, ((hsecond.updated _).mp hupdated).2⟩, hdeleted, hthird.deleted.mp hdeleted⟩

end ActionCall

end DiceBot
