import DiceBot.Proofs.Expr.Grammar
import DiceBot.Proofs.Token.Cut
import DiceBot.Proofs.Token.Layout

/-!
# What a refused expression is blamed on

The reader stops at the first token that no expression can go on with. What it has read up to there
can always be completed: an operand where one is missing and the closing parentheses make an
expression of it. So the complaint names the right place: the end, if everything can be completed,
else the token that cannot follow, or the innermost parenthesis that is still open there.

## Main definitions

* `Reader.missing`: what completes an expression
* `IsViable`, `IsRefused`: tokens that can be completed, and tokens that cannot
* `Token.unclosed`: the parentheses that are still open
* `Blames`: when a complaint names the right place

## Main results

* `isViable_of_run`: what has been read can be completed
* `Reader.exists_opened`: what stands in an open parenthesis is read as if it stood alone
* `parse_blames`: every complaint names the right place
-/

namespace DiceBot

namespace Reader

variable {r r' : Reader} {tokens : List Token} {t : Token} {fault : Fault}

/-! ## Where reading stops -/

/-- Reading fails at one token, before which everything is read. -/
theorem exists_step_of_run_eq_error (h : r.run tokens = .error fault) :
    ∃ front t back r', tokens = front ++ t :: back ∧ r.run front = .ok r' ∧
      r'.step t = .error fault := by
  induction tokens generalizing r with
  | nil => cases h
  | cons t rest ih =>
    rw [run] at h
    cases hs : r.step t with
    | error fault' =>
      rw [hs] at h
      cases h
      exact ⟨[], t, rest, r, rfl, rfl, hs⟩
    | ok next =>
      rw [hs] at h
      obtain ⟨front, u, back, r', rfl, hrun, hfail⟩ := ih h
      refine ⟨t :: front, u, back, r', rfl, ?_, hfail⟩
      rw [run, hs]
      exact hrun

/-- The complaint about a token that cannot be read: an open parenthesis if an operand has been
read in one, else the token itself. -/
theorem blamed_of_step (h : r.step t = .error fault) (hdeep : fault ≠ .tooDeep) :
    fault = unexpected t ∨ ∃ e level p around outer,
      r = ⟨some e, level, (p, around) :: outer⟩ ∧ fault = .malformed (.unclosed p) := by
  obtain ⟨lexeme, place⟩ := t
  obtain ⟨_ | e, level, outer⟩ := r
  · left
    cases lexeme with
    | number text => cases h
    | dice text => cases h
    | sign s => exact absurd (withinLimit_eq_error h).1 hdeep
    | opening => exact absurd (withinLimit_eq_error h).1 hdeep
    | scaling s => cases h; rfl
    | closing => cases h; rfl
  · obtain _ | ⟨⟨p, around⟩, outer⟩ := outer
    · left
      cases lexeme <;> cases h <;> rfl
    · right
      cases lexeme <;> cases h <;> exact ⟨e, level, p, around, outer, rfl, rfl⟩

theorem blamed_of_finish (h : r.finish = .error fault) :
    fault = .malformed .unexpectedEnd ∨ ∃ e level p around outer,
      r = ⟨some e, level, (p, around) :: outer⟩ ∧ fault = .malformed (.unclosed p) := by
  obtain ⟨_ | e, level, _ | ⟨⟨p, around⟩, outer⟩⟩ := r
  · cases h; exact .inl rfl
  · cases h; exact .inl rfl
  · cases h
  · cases h; exact .inr ⟨e, level, p, around, outer, rfl, rfl⟩

/-! ## Completing what has been read -/

/-- What completes an expression: an operand if one is missing, and the closing parentheses. -/
def missing (r : Reader) : List Lexeme :=
  (if r.operand = none then [.number "0"] else []) ++ List.replicate r.outer.length .closing

/-- The open parentheses can be closed behind an operand. -/
theorem exists_run_closings (e : Expr) (level : Level) (outer : List (Nat × Level))
    (h : tokens.map Token.lexeme = List.replicate outer.length .closing) :
    ∃ e' level', run ⟨some e, level, outer⟩ tokens = .ok ⟨some e', level', []⟩ := by
  induction outer generalizing e level tokens with
  | nil =>
    obtain rfl := List.map_eq_nil_iff.mp h
    exact ⟨e, level, rfl⟩
  | cons o outer ih =>
    obtain ⟨t, rest, rfl, ht, hrest⟩ := List.map_eq_cons_iff.mp h
    obtain ⟨e', level', hrun⟩ := ih (.group (level.expr e)) o.2 hrest
    exact ⟨e', level', run_cons_eq_ok_iff.mpr ⟨_, .closing ht, hrun⟩⟩

theorem exists_run_missing (r : Reader) (h : tokens.map Token.lexeme = r.missing) :
    ∃ e level, r.run tokens = .ok ⟨some e, level, []⟩ := by
  obtain ⟨_ | e, level, outer⟩ := r
  · obtain ⟨t, rest, rfl, ht, hrest⟩ := List.map_eq_cons_iff.mp h
    obtain ⟨e', level', hrun⟩ := exists_run_closings (.number "0" t.position) level outer hrest
    exact ⟨e', level', run_cons_eq_ok_iff.mpr ⟨_, .number _ ht, hrun⟩⟩
  · exact exists_run_closings e level outer h

theorem isProper_of_mem_missing {l : Lexeme} (h : l ∈ r.missing) :
    (Piece.lexeme l).IsProper := by
  rcases List.mem_append.mp h with h | h
  · split at h
    · obtain rfl := List.mem_singleton.mp h
      exact .whole ⟨by decide, by decide⟩
    · cases h
  · obtain rfl := List.eq_of_mem_replicate h
    trivial

end Reader

/-- Tokens with which the tokens of some text begin that is read as an expression. -/
def IsViable (front : List Token) : Prop :=
  ∃ (t : Text) (rest : List Token) (tree : Expr),
    t.tokens = .ok (front ++ rest) ∧ parse (front ++ rest) = .ok tree

/-- Tokens that are not read as an expression, whatever tokens stand behind them. -/
def IsRefused (front : List Token) : Prop :=
  ∀ (rest : List Token) (tree : Expr), parse (front ++ rest) ≠ .ok tree

/-- What has been read of the tokens of a text can be completed. -/
theorem isViable_of_run {t : Text} {front rest : List Token} {r : Reader}
    (h : t.tokens = .ok (front ++ rest)) (hrun : Reader.run {} front = .ok r) :
    IsViable front := by
  obtain ⟨ps, hpieces, hplaced⟩ := Text.exists_pieces_of_tokens h
  obtain ⟨qs, qs', rfl, hfront⟩ := exists_append_of_placed hplaced
  let more : List Piece := r.missing.map .lexeme
  let rest' := placed (0 + (qs.flatMap Piece.text).length) more
  have htokens : placed 0 (qs ++ more) = front ++ rest' := by
    rw [placed_append, hfront]
  obtain ⟨e, level, hmore⟩ := r.exists_run_missing (map_lexeme_placed _ r.missing)
  have hall : Reader.run {} (front ++ rest') = .ok ⟨some e, level, []⟩ := by
    rw [Reader.run_append, hrun]
    exact hmore
  have hproper : ∀ p ∈ qs ++ more, p.IsProper := by
    intro p hp
    rcases List.mem_append.mp hp with hp | hp
    · exact Text.isProper_of_pieces hpieces p (List.mem_append_left _ hp)
    · obtain ⟨l, hl, rfl⟩ := List.mem_map.mp hp
      exact Reader.isProper_of_mem_missing hl
  have hblanks : (qs ++ more).IsChain fun p q => p.isBlanks = true → q.isBlanks = false := by
    have hmap : more.IsChain fun p q => p.isBlanks = true → q.isBlanks = false := by
      rw [List.isChain_map]
      exact (List.pairwise_of_forall fun _ _ _ => rfl).isChain
    refine List.isChain_append.mpr
      ⟨(List.isChain_append.mp (Text.isChain_of_pieces hpieces)).1, hmap, ?_⟩
    intro p hp q hq hblank
    obtain ⟨l, -, rfl⟩ := List.mem_map.mp (List.mem_of_mem_head? hq)
    rfl
  have hleaves : (placed 0 (qs ++ more)).IsChain
      fun t u => t.lexeme.isLeaf = true → u.lexeme.isLeaf = false := by
    rw [htokens]
    exact Reader.isChain_run hall
  have hchain := isChain_mayPrecede hblanks hleaves
  refine ⟨(qs ++ more).flatMap Piece.text, rest', level.expr e, ?_, ?_⟩
  · rw [← htokens, Text.tokens, Text.pieces_flatMap hproper hchain]
    rfl
  · refine parse_eq_ok_iff.mpr ⟨?_, e, level, hall, rfl⟩
    intro hnil
    rw [hnil] at hall
    cases hall

/-- What the reader does not accept is not accepted with anything behind it. -/
theorem isRefused_of_step {front : List Token} {t : Token} {r : Reader} {fault : Fault}
    (hrun : Reader.run {} front = .ok r) (h : r.step t = .error fault) :
    IsRefused (front ++ [t]) := by
  intro rest tree hparse
  obtain ⟨-, e, level, hall, -⟩ := parse_eq_ok_iff.mp hparse
  rw [List.append_assoc, Reader.run_append, hrun] at hall
  obtain ⟨next, hstep, -⟩ := Reader.run_cons_eq_ok_iff.mp hall
  rw [Reader.step_eq_ok_iff.mpr hstep] at h
  cases h

/-! ## Open parentheses -/

namespace Token

/-- The parentheses that are open behind a token, the innermost first. -/
def opened (positions : List Nat) (t : Token) : List Nat :=
  match t.lexeme with
  | .opening => t.position :: positions
  | .closing => positions.tail
  | _ => positions

/-- The positions of the parentheses that are never closed, the innermost first. -/
def unclosed (tokens : List Token) : List Nat :=
  tokens.foldl opened []

end Token

namespace Reader

variable {r r' : Reader} {tokens : List Token} {t : Token}

theorem Step.map_outer (h : Step t r r') :
    r'.outer.map Prod.fst = t.opened (r.outer.map Prod.fst) := by
  cases h with
  | opening ht => rw [Token.opened, ht]; rfl
  | closing ht => rw [Token.opened, ht]; rfl
  | number _ ht | dice _ ht | signed _ ht | sum _ ht | product _ ht => rw [Token.opened, ht]

/-- The reader remembers the parentheses that are open. -/
theorem map_outer_run (h : r.run tokens = .ok r') :
    r'.outer.map Prod.fst = tokens.foldl Token.opened (r.outer.map Prod.fst) := by
  induction tokens generalizing r with
  | nil =>
    cases h
    rfl
  | cons t rest ih =>
    obtain ⟨next, hs, hn⟩ := run_cons_eq_ok_iff.mp h
    rw [ih hn, hs.map_outer]
    rfl

/-! ## Inside a parenthesis -/

variable {extra outer : List (Nat × Level)} {p : Nat} {around : Level}

/-- Fewer parentheses around it make nothing deeper. -/
theorem depth_le_depth_append (operand : Option Expr) (level : Level)
    (extra outer : List (Nat × Level)) :
    depth ⟨operand, level, extra⟩ ≤ depth ⟨operand, level, extra ++ outer⟩ := by
  have hsigns (n : Nat) : extra.foldr (fun o n => o.2.signs.length + n) 0 ≤
      extra.foldr (fun o n => o.2.signs.length + n) n := by
    induction extra with
    | nil => exact Nat.zero_le n
    | cons o extra ih => exact Nat.add_le_add_left ih _
  have hle := hsigns (outer.foldr (fun o n => o.2.signs.length + n) 0)
  simp only [depth, List.length_append, List.foldr_append]
  omega

/-- A step inside a parenthesis is one that needs nothing around it, unless it is the step that
opens the parenthesis. -/
theorem Step.inside (h : Step t r r') (houter : r'.outer = extra ++ (p, around) :: outer) :
    (t = ⟨.opening, p⟩ ∧ r' = ⟨none, {}, (p, around) :: outer⟩ ∧ extra = []) ∨
      ∃ extra', r.outer = extra' ++ (p, around) :: outer ∧
        Step t ⟨r.operand, r.level, extra'⟩ ⟨r'.operand, r'.level, extra⟩ := by
  cases h with
  | number text ht => exact .inr ⟨extra, houter, .number text ht⟩
  | dice text ht => exact .inr ⟨extra, houter, .dice text ht⟩
  | sum s ht => exact .inr ⟨extra, houter, .sum s ht⟩
  | product s ht => exact .inr ⟨extra, houter, .product s ht⟩
  | signed s ht hd =>
    refine .inr ⟨extra, houter, .signed s ht ?_⟩
    cases houter
    exact (depth_le_depth_append _ _ _ _).trans_lt hd
  | @opening level outer₀ ht hd =>
    obtain ⟨lexeme, position⟩ := t
    cases ht
    cases extra with
    | nil =>
      cases houter
      exact .inl ⟨rfl, rfl, rfl⟩
    | cons o extra =>
      cases houter
      refine .inr ⟨extra, rfl, .opening rfl ?_⟩
      exact (depth_le_depth_append none {} (_ :: extra) _).trans_lt hd
  | @closing e level around' place outer₀ ht =>
    cases houter
    exact .inr ⟨(place, around') :: extra, rfl, .closing ht⟩

/-- What stands in an open parenthesis is read as if it stood alone. -/
theorem exists_opened (h : run {} tokens = .ok r)
    (houter : r.outer = extra ++ (p, around) :: outer) :
    ∃ front inner, tokens = front ++ ⟨.opening, p⟩ :: inner ∧
      run {} inner = .ok ⟨r.operand, r.level, extra⟩ := by
  induction tokens using List.reverseRecOn generalizing r extra with
  | nil =>
    cases h
    cases extra <;> cases houter
  | append_singleton tokens t ih =>
    rw [run_append] at h
    cases hrun : run {} tokens with
    | error fault =>
      rw [hrun] at h
      cases h
    | ok before =>
      rw [hrun] at h
      obtain ⟨next, hstep, hnext⟩ := run_cons_eq_ok_iff.mp h
      cases hnext
      rcases hstep.inside houter with ⟨rfl, rfl, rfl⟩ | ⟨extra', hbefore, hinside⟩
      · exact ⟨tokens, [], rfl, rfl⟩
      · obtain ⟨front, inner, rfl, hinner⟩ := ih hrun hbefore
        refine ⟨front, inner ++ [t], by rw [List.append_assoc, List.cons_append], ?_⟩
        rw [run_append, hinner]
        exact run_cons_eq_ok_iff.mpr ⟨_, hinside, rfl⟩

end Reader

/-! ## Complaints -/

/-- A complaint about some tokens names the right place: the end if all of them can be completed, a
token if those before it can be completed but not those up to it, and the innermost parenthesis
that is open behind a complete expression where no token that follows could be read. -/
inductive Blames (tokens : List Token) : Malformed → Prop where
  | unexpectedEnd : IsViable tokens → Blames tokens .unexpectedEnd
  | unexpectedToken {front back : List Token} (t : Token) : tokens = front ++ t :: back →
      IsViable front → IsRefused (front ++ [t]) →
      Blames tokens (.unexpectedToken t.text t.position)
  | unclosed {front inner back : List Token} {p : Nat} {tree : Expr} :
      tokens = front ++ ⟨.opening, p⟩ :: (inner ++ back) →
      IsViable (front ++ ⟨.opening, p⟩ :: inner) →
      (Token.unclosed (front ++ ⟨.opening, p⟩ :: inner)).head? = some p →
      parse inner = .ok tree →
      (∀ t ∈ back.head?, IsRefused (front ++ ⟨.opening, p⟩ :: (inner ++ [t]))) →
      Blames tokens (.unclosed p)

/-- Where an operand has been read in a parenthesis and no token goes on, the parenthesis is to
blame. -/
theorem Blames.of_open {tokens read back : List Token} {e : Expr} {level around : Level} {p : Nat}
    {outer : List (Nat × Level)} (htokens : tokens = read ++ back) (hviable : IsViable read)
    (hrun : Reader.run {} read = .ok ⟨some e, level, (p, around) :: outer⟩)
    (hback : ∀ t ∈ back.head?, IsRefused (read ++ [t])) : Blames tokens (.unclosed p) := by
  have houter : (⟨some e, level, (p, around) :: outer⟩ : Reader).outer =
      [] ++ (p, around) :: outer := rfl
  obtain ⟨front, inner, rfl, hinner⟩ := Reader.exists_opened hrun houter
  have hparse : parse inner = .ok (level.expr e) := by
    refine parse_eq_ok_iff.mpr ⟨?_, e, level, hinner, rfl⟩
    rintro rfl
    cases hinner
  rw [List.append_assoc, List.cons_append] at htokens
  refine .unclosed htokens hviable ?_ hparse ?_
  · have hopen : _ = Token.unclosed _ := Reader.map_outer_run hrun
    rw [← hopen]
    rfl
  · intro t ht
    have hrefused := hback t ht
    rwa [List.append_assoc, List.cons_append] at hrefused

/-- **Complaints name the right place.** The tokens of a text stand at ascending positions. If they
are not read as an expression, and not because they nest too deeply, the complaint is about the end,
a token or a parenthesis, and names the right one. -/
theorem parse_blames {t : Text} {tokens : List Token} {fault : Fault} (h : t.tokens = .ok tokens)
    (hne : tokens ≠ []) (hparse : parse tokens = .error fault) (hdeep : fault ≠ .tooDeep) :
    tokens.Pairwise (fun u v => u.position < v.position) ∧
      ∃ cause, fault = .malformed cause ∧ Blames tokens cause := by
  constructor
  · obtain ⟨ps, hpieces, rfl⟩ := Text.exists_pieces_of_tokens h
    exact (Text.isLaidOut_of_pieces hpieces).ascending
  rw [parse, if_neg hne] at hparse
  cases hrun : Reader.run {} tokens with
  | error fault' =>
    rw [hrun] at hparse
    cases hparse
    obtain ⟨front, u, back, r, rfl, hfront, hstep⟩ := Reader.exists_step_of_run_eq_error hrun
    have hviable := isViable_of_run h hfront
    have hrefused := isRefused_of_step hfront hstep
    rcases Reader.blamed_of_step hstep hdeep with rfl | ⟨e, level, p, around, outer, rfl, rfl⟩
    · exact ⟨_, rfl, .unexpectedToken u rfl hviable hrefused⟩
    · refine ⟨_, rfl, .of_open rfl hviable hfront ?_⟩
      intro v hv
      cases hv
      exact hrefused
  | ok r =>
    rw [hrun] at hparse
    rw [← List.append_nil tokens] at h
    have hviable := isViable_of_run h hrun
    rcases Reader.blamed_of_finish hparse with rfl | ⟨e, level, p, around, outer, rfl, rfl⟩
    · exact ⟨_, rfl, .unexpectedEnd hviable⟩
    · refine ⟨_, rfl, .of_open (List.append_nil tokens).symm hviable hrun ?_⟩
      intro v hv
      cases hv

/-- A sum in a parenthesis that is not closed, with a number behind it. -/
def Text.unclosedSum : Text :=
  "2*(d6+1 3)"

/-- The parenthesis around a sum is to blame when a number stands behind the sum. -/
theorem blames_unclosedSum :
    ∃ tokens, Text.unclosedSum.tokens = .ok tokens ∧
      parse tokens = .error (.malformed (.unclosed 2)) ∧ Blames tokens (.unclosed 2) := by
  have hparse : Text.unclosedSum.tokens.toOption.map parse =
      some (.error (.malformed (.unclosed 2))) := by decide +kernel
  cases htokens : Text.unclosedSum.tokens with
  | error cause =>
    rw [htokens] at hparse
    cases hparse
  | ok tokens =>
    rw [htokens] at hparse
    have hparse : parse tokens = .error (.malformed (.unclosed 2)) := Option.some.inj hparse
    have hne : tokens ≠ [] := by
      rintro rfl
      cases hparse
    obtain ⟨-, cause, hcause, hblames⟩ := parse_blames htokens hne hparse nofun
    cases hcause
    exact ⟨tokens, rfl, hparse, hblames⟩

end DiceBot
