import DiceBot.Dice.Listener
import DiceBot.Proofs.Flag.Appended

/-!
# Delivery of answers

What becomes of a command when flags are written behind it. The command is found again without
them, so that the same dice fall and the same response is made of them, or making it is broken off
by the same fault. The flags only decide where the response goes: if `private` is among them, to
the author and nowhere else, and otherwise into the channel as a reply.

## Main definitions

* `Delivers`: what a reaction does with a response

## Main results

* `hear_delivers`: the reaction to a message delivers the response to its command
* `hear_flagged`: a command with flags behind it and the command alone
-/

namespace DiceBot

/-- A reaction delivers a response: nothing is sent if making it was broken off or if there is no
answer. An answer is sent once, to the author alone behind the link to the message if the flags ask
for it, and otherwise as a reply. -/
inductive Delivers (link : Text) (flags : List Text) :
    Except Fault (Option Text) → Reaction → Prop where
  | broken {fault : Fault} {r : Reaction} : r.messages = [] → r.failure = some (.fault fault) →
      Delivers link flags (.error fault) r
  | silent {r : Reaction} : r.messages = [] → r.failure = none → Delivers link flags (.ok none) r
  | whispered {answer : Text} {r : Reaction} : privateFlag ∈ flags →
      r.messages = [.whisper (link ++ "\n" ++ answer)] → r.failure = none →
      Delivers link flags (.ok (some answer)) r
  | replied {answer : Text} {r : Reaction} : privateFlag ∉ flags →
      r.messages = [.reply answer] → r.failure = none → Delivers link flags (.ok (some answer)) r

variable {k : Keeper} {m : IncomingMessage} {link : Text}

/-- Where the bot listens, the reaction to a message delivers the response to its command, and the
dice of the response fall. -/
theorem hear_delivers (hbot : m.fromBot = false) (hallowed : k.isAllowed m.channel = .ok true)
    {command : Text} {flags : List Text} (hsplit : m.content.trimmed.splitFlags = (command, flags))
    (shaker : Shaker) (index : Nat) :
    Delivers m.link flags (command.answered shaker index).1.answer (hear k shaker index m).1 ∧
      (hear k shaker index m).2 = index + (command.answered shaker index).2 := by
  unfold hear
  rw [hbot, hallowed, hsplit, if_neg Bool.false_ne_true]
  dsimp only
  cases hanswer : (command.answered shaker index).1.answer with
  | error fault => exact ⟨.broken rfl rfl, rfl⟩
  | ok answer? =>
    cases answer? with
    | none => exact ⟨.silent rfl rfl, rfl⟩
    | some answer =>
      by_cases hprivate : privateFlag ∈ flags
      · refine ⟨.whispered hprivate ?_ ?_, rfl⟩
        · simp only [deliver, if_pos hprivate]
        · simp only [deliver, if_pos hprivate]
      · refine ⟨.replied hprivate ?_ ?_, rfl⟩
        · simp only [deliver, if_neg hprivate]
          rfl
        · simp only [deliver, if_neg hprivate]
          rfl

/-- A response without an answer is not delivered. -/
theorem Delivers.messages_eq_nil {flags : List Text} {response : Except Fault (Option Text)}
    {r : Reaction} (h : Delivers link flags response r)
    (hnone : ∀ answer, response ≠ .ok (some answer)) : r.messages = [] := by
  cases h with
  | broken hmessages _ => exact hmessages
  | silent hmessages _ => exact hmessages
  | whispered => exact absurd rfl (hnone _)
  | replied => exact absurd rfl (hnone _)

namespace Text

/-- No text is both a roll and an arithmetic expression. -/
theorem isRoll_of_isArithmetic {e : Text} (h : e.isArithmetic = true) : e.isRoll = false := by
  unfold isArithmetic at h
  unfold isRoll
  cases htokens : e.tokens with
  | error cause => rfl
  | ok tokens =>
    rw [htokens] at h
    obtain ⟨_, hall⟩ := Bool.and_eq_true_iff.mp h
    rw [List.all_eq_true] at hall
    rw [List.any_eq_false]
    intro t ht
    simpa using hall t ht

/-- An arithmetic command without a value has no answer. -/
theorem answered_of_value_eq_error {c : Text} (hcommand : c.isArithmeticCommand = true)
    {fault : Fault} (hvalue : Text.value (c.drop 1) = .error fault) (shaker : Shaker)
    (index : Nat) : ∀ answer, (c.answered shaker index).1.answer ≠ .ok (some answer) := by
  have hroll : c.isRollCommand = false := by
    obtain ⟨e, he, harithmetic⟩ := (Option.any_eq_true ..).mp hcommand
    rw [isRollCommand, he]
    exact isRoll_of_isArithmetic harithmetic
  intro answer
  unfold answered
  rw [hroll, hcommand]
  show (arithmeticResponse (c.drop 1)).answer ≠ _
  unfold arithmeticResponse
  rw [hvalue]
  cases fault <;> rintro ⟨⟩

end Text

/-- **Flags behind a command decide where its response goes, and nothing else.** Let a command be
trimmed and have no flags of its own. With flags behind it the same dice fall, and the same
response is delivered as that flags ask for; an arithmetic command without a value is not answered
in either case. -/
theorem hear_flagged (hbot : m.fromBot = false) (hallowed : k.isAllowed m.channel = .ok true)
    {c : Text} (hcommand : c.isRollCommand = true ∨ c.isArithmeticCommand = true)
    (htrimmed : c.trimmed = c) (hsplit : c.splitFlags = (c, [])) {flags : List WrittenFlag}
    (hflags : flags ≠ []) (shaker : Shaker) (index : Nat) :
    let plain := hear k shaker index { m with content := c }
    let flagged := hear k shaker index { m with content := c ++ WrittenFlag.row flags }
    let response := (c.answered shaker index).1.answer
    Delivers m.link [] response plain.1 ∧
      Delivers m.link (flags.map WrittenFlag.word) response flagged.1 ∧
      plain.2 = index + (c.answered shaker index).2 ∧ flagged.2 = plain.2 ∧
      (c.isArithmeticCommand = true → ∀ fault, Text.value (c.drop 1) = .error fault →
        plain.1.messages = [] ∧ flagged.1.messages = []) := by
  intro plain flagged response
  have hown : c.trimmed.splitFlags = (c, []) := by
    rw [htrimmed]
    exact hsplit
  have hbehind : (c ++ WrittenFlag.row flags).trimmed.splitFlags =
      (c, flags.map WrittenFlag.word) := by
    rw [Text.trimmed_append_row hcommand hflags]
    exact Text.splitFlags_append_row hsplit (WrittenFlag.isFlagRow_row hflags)
  obtain ⟨hplain, hdice⟩ :=
    hear_delivers (m := { m with content := c }) hbot hallowed hown shaker index
  obtain ⟨hflagged, hdice'⟩ :=
    hear_delivers (m := { m with content := c ++ WrittenFlag.row flags }) hbot hallowed hbehind
      shaker index
  refine ⟨hplain, hflagged, hdice, hdice'.trans hdice.symm, ?_⟩
  intro harithmetic fault hvalue
  have hnone := Text.answered_of_value_eq_error harithmetic hvalue shaker index
  exact ⟨hplain.messages_eq_nil hnone, hflagged.messages_eq_nil hnone⟩

/-- The flag that sends an answer to the author alone. -/
def WrittenFlag.secret : WrittenFlag where
  mark := " --"
  word := privateFlag
  mark_mem := List.mem_cons_self
  isWord := ⟨by decide, by decide +kernel⟩

/-- The answer to a roll of two dice is whispered to its author. -/
theorem hear_flagged_secret_roll :
    Keeper.isAllowed ⟨.standard, [], []⟩ 5 = .ok true ∧
      Text.isRollCommand "!2d6" = true ∧ Text.trimmed "!2d6" = "!2d6" ∧
      Text.splitFlags "!2d6" = (Text.ofString "!2d6", []) ∧
      (hear ⟨.standard, [], []⟩ (.ofStream id) 0
        ⟨"!2d6 --private", false, 5, "ada", "link"⟩).1.messages =
          [.whisper "link\n2d6\n2d6 (1, 2) = 3\n**3**"] := by
  have hallowed : Keeper.isAllowed ⟨.standard, [], []⟩ 5 = .ok true := rfl
  have hcommand : Text.isRollCommand "!2d6" = true := by decide +kernel
  have htrimmed : Text.trimmed "!2d6" = "!2d6" := by decide +kernel
  have hsplit : Text.splitFlags "!2d6" = (Text.ofString "!2d6", []) := by decide +kernel
  have hflags : [WrittenFlag.secret] ≠ [] := List.cons_ne_nil _ _
  have hanswer : (Text.answered "!2d6" (.ofStream id) 0).1.answer =
      .ok (some "2d6\n2d6 (1, 2) = 3\n**3**") := by
    decide +kernel
  obtain ⟨_, hdelivers, _⟩ := hear_flagged (m := ⟨[], false, 5, "ada", "link"⟩) rfl hallowed
    (.inl hcommand) htrimmed hsplit hflags (.ofStream id) 0
  refine ⟨hallowed, hcommand, htrimmed, hsplit, ?_⟩
  rw [hanswer] at hdelivers
  cases hdelivers with
  | whispered _ hmessages _ => exact hmessages
  | replied hreplied _ _ => exact absurd List.mem_cons_self hreplied

end DiceBot
