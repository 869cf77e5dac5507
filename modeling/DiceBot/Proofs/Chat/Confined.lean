import DiceBot.Chat.Host
import DiceBot.Proofs.Dice.Boundary

/-!
# Channels in which the bot does not answer

In a channel that the settings do not allow, messages are not listened to, and the commands of
actions are passed over without a trace. The commands for a roll and for the explanation do not ask
for the channel, so that they break the silence: the explanation is posted there as everywhere
else, and of a roll whatever is said about it, unless a fault escapes before anything can be said.

## Main results

* `hear_of_closed`, `Host.confined_of_closed`: what is held back
* `rollOnRequest_messages_eq_nil_iff`: the rolls on request about which nothing is said
* `Host.react_messages_eq_nil_iff`: the requests to which the bot is silent
-/

namespace DiceBot

variable {shaker : Shaker} {index : Nat}

/-! ## What is held back -/

/-- Nothing is heard in a channel that is not allowed. -/
theorem hear_of_closed {k : Keeper} {m : IncomingMessage}
    (hclosed : k.isAllowed m.channel = .ok false) : hear k shaker index m = (.none, index) := by
  unfold hear
  rw [hclosed]
  split
  · rfl
  · rfl

theorem Host.confined_of_closed {h : Host} {channel : Int}
    (hclosed : h.watcher.keeper.isAllowed channel = .ok false) (r : Reaction × Host) :
    h.confined channel r = (.none, h) := by
  unfold confined
  rw [hclosed]

/-! ## Rolls on request -/

/-- A response to a roll is broken off by the faults that escape. -/
theorem rollResponse_answer_eq_error_iff {e : Text} {fault : Fault} :
    (rollResponse e shaker index).1.answer = .error fault ↔
      fault.Escapes ∧ ((e.rolled shaker index).1 >>= Outcome.trace) = .error fault := by
  rw [rollResponse_answer]
  cases (e.rolled shaker index).1 >>= Outcome.trace with
  | ok trace =>
    refine iff_of_false ?_ ?_
    · rintro ⟨⟩
    · rintro ⟨_, ⟨⟩⟩
  | error fault' =>
    by_cases hf : fault'.Escapes
    · dsimp only
      rw [faultResponse_answer_eq_error hf]
      constructor
      · rintro ⟨⟩
        exact ⟨hf, rfl⟩
      · rintro ⟨_, ⟨⟩⟩
        rfl
    · refine iff_of_false ?_ ?_
      · intro herror
        dsimp only at herror
        rcases faultResponse_answer (t := e) hf with hok | hok
        · rw [hok] at herror
          cases herror
        · rw [hok] at herror
          cases herror
      · rintro ⟨hescapes, ⟨⟩⟩
        exact hf hescapes

/-- Nothing is said about a roll on request exactly if it is one and a fault escapes from it. -/
theorem rollOnRequest_messages_eq_nil_iff {e : Text} :
    (rollOnRequest shaker index e).1.messages = [] ↔
      e.isRoll = true ∧ e.Escapes shaker index := by
  rw [← exists_trace_eq_error_iff]
  unfold rollOnRequest
  by_cases hroll : e.isRoll = true
  · rw [if_pos hroll, and_iff_right hroll]
    dsimp only
    cases hanswer : (rollResponse e shaker index).1.answer with
    | error fault => exact iff_of_true rfl ⟨fault, rollResponse_answer_eq_error_iff.mp hanswer⟩
    | ok answer =>
      refine iff_of_false (List.cons_ne_nil _ _) ?_
      rintro ⟨fault, hfault⟩
      rw [rollResponse_answer_eq_error_iff.mpr hfault] at hanswer
      cases hanswer
  · rw [if_neg hroll]
    exact iff_of_false (List.cons_ne_nil _ _) fun h => hroll h.1

/-! ## Requests -/

namespace Host

variable {h : Host} {s : Sender}

/-- Any request but a few is passed over in a channel that is not allowed. -/
theorem react_of_closed (hclosed : h.watcher.keeper.isAllowed s.channel = .ok false)
    {request : Request} (hwatch : ∀ action, request ≠ .watch action) (hhelp : request ≠ .help)
    (hroll : ∀ e, request ≠ .roll e) (shaker : Shaker) :
    h.react shaker s request = (.none, h) := by
  cases request with
  | message content => exact congrArg h.fallen (hear_of_closed hclosed)
  | action name roll => exact confined_of_closed hclosed _
  | actions => exact confined_of_closed hclosed _
  | heh => exact confined_of_closed hclosed _
  | roll e => exact absurd rfl (hroll e)
  | help => exact absurd rfl hhelp
  | watch action => exact absurd rfl (hwatch action)

/-- **The requests to which the bot is silent** in a channel that is not allowed. No message of
that channel is heard, whoever wrote it, and no request for an action, for the list of actions or
for a laugh leaves a trace. Of all requests but those about the playlist, those are answered that
ask for the explanation, or for a roll from which no fault escapes. -/
theorem react_messages_eq_nil_iff (hclosed : h.watcher.keeper.isAllowed s.channel = .ok false)
    {request : Request} (hwatch : ∀ action, request ≠ .watch action) (shaker : Shaker) :
    (∀ (m : IncomingMessage) (index : Nat), m.channel = s.channel →
      hear h.watcher.keeper shaker index m = (.none, index)) ∧
    (request ≠ .help → (∀ e, request ≠ .roll e) → h.react shaker s request = (.none, h)) ∧
    ((h.react shaker s request).1.messages = [] ↔
      request ≠ .help ∧
        ∀ e, request = .roll e → e.isRoll = true ∧ e.Escapes shaker h.desk.index) := by
  refine ⟨?_, fun hhelp hroll => react_of_closed hclosed hwatch hhelp hroll shaker, ?_⟩
  · rintro m index hm
    exact hear_of_closed (hm ▸ hclosed)
  · by_cases hhelp : request = .help
    · subst hhelp
      exact iff_of_false (List.cons_ne_nil _ _) fun h => h.1 rfl
    by_cases hroll : ∃ e, request = .roll e
    · obtain ⟨e, rfl⟩ := hroll
      refine rollOnRequest_messages_eq_nil_iff.trans ?_
      constructor
      · intro hsilent
        refine ⟨hhelp, ?_⟩
        rintro _ ⟨⟩
        exact hsilent
      · rintro ⟨_, hsilent⟩
        exact hsilent e rfl
    · have hother : ∀ e, request ≠ .roll e := fun e he => hroll ⟨e, he⟩
      rw [react_of_closed hclosed hwatch hhelp hother]
      exact iff_of_true rfl ⟨hhelp, fun e he => absurd he (hother e)⟩

/-- A host that answers in one channel only. -/
def inChannelFive : Host where
  desk := ⟨.empty, 0⟩
  watcher :=
    { key := none
      keeper := ⟨{ Settings.standard with allowedChannels := .array [.integer 5] }, [], []⟩
      running := false }

theorem silent_about_laugh_in_channel_one :
    inChannelFive.watcher.keeper.isAllowed 1 = .ok false ∧
      (inChannelFive.react (.ofStream id) ⟨"ada", 7, 1, "link"⟩ .heh).1.messages = [] := by
  have hclosed : inChannelFive.watcher.keeper.isAllowed 1 = .ok false := rfl
  refine ⟨hclosed, ?_⟩
  have hwatch : ∀ action, Request.heh ≠ .watch action := nofun
  obtain ⟨_, _, hsilent⟩ :=
    react_messages_eq_nil_iff (s := ⟨"ada", 7, 1, "link"⟩) hclosed hwatch (.ofStream id)
  exact hsilent.mpr ⟨nofun, nofun⟩

/-- A roll on request and a call for help are answered in a channel that is not allowed. -/
theorem answered_in_channel_one :
    inChannelFive.watcher.keeper.isAllowed 1 = .ok false ∧
      (inChannelFive.react (.ofStream id) ⟨"ada", 7, 1, "link"⟩ (.roll "no dice")).1.messages =
        [.post "Invalid roll string"] ∧
      (inChannelFive.react (.ofStream id) ⟨"ada", 7, 1, "link"⟩ .help).1.messages =
        guide.messages := by
  refine ⟨rfl, ?_, rfl⟩
  decide +kernel

end Host

end DiceBot
