import DiceBot.Proofs.Dice.Term
import DiceBot.Proofs.Token.Layout

/-!
# Dice tokens read as dice terms

Tokens are cut by one reader and read as dice terms by another. Both mean the same terms: a token
can be taken apart in one way only, none is refused for its form, and what the numerals say decides
what becomes of it. The other way round, a term that is written with its numbers is one token, and
is read with these numbers again.

## Main definitions

* `Keep.selectors`: how a selection is written
* `Text.DiceParts.Selects`: the selection that the parts of a term ask for
* `Text.DiceParts.IsReadable`: no numeral is too long
* `DiceTerm.written`: the text of a term that is written with its numbers

## Main results

* `Text.DiceParts.IsProper.eq_of_text_eq`: a dice term can be taken apart in one way only
* `DiceTerm.ofParts_of_isReadable`: what the numerals of a term decide
* `DiceTerm.ofText_of_token`: tokens are read as the terms that they are, and written terms are
  tokens
-/

namespace DiceBot

open Text (DiceParts)

/-- How a selection may be written. -/
def Keep.selectors : Keep → List Text
  | .highest => ["kh", "k"]
  | .lowest => ["kl"]

/-- The selector that a selection is written with here: of two the longer one. -/
def Keep.selector : Keep → Text
  | .highest => "kh"
  | .lowest => "kl"

theorem Keep.selector_mem (keep : Keep) :
    keep.selector ∈ keep.selectors ∧ keep.selector ∈ Text.keepSelectors := by
  cases keep <;> decide

namespace Text.DiceParts

/-- The selection that the parts of a term ask for. -/
inductive Selects (parts : DiceParts) : Option (Keep × Int) → Prop where
  | all : parts.keep = none → Selects parts none
  | some {keep : Keep} {selector digits : Text} : parts.keep = some (selector, digits) →
      selector ∈ keep.selectors → Selects parts (some (keep, digits.digitsValue))

/-- No numeral of a term is too long to be read. -/
structure IsReadable (parts : DiceParts) : Prop where
  count_length : parts.count.length ≤ maxNumeralDigits
  sides_length : parts.sides.length ≤ maxNumeralDigits
  keep_length : ∀ k ∈ parts.keep, k.2.length ≤ maxNumeralDigits

variable {parts parts' : DiceParts}

/-- A dice term can be taken apart in one way only. -/
theorem IsProper.eq_of_text_eq (h : parts.IsProper) (h' : parts'.IsProper)
    (htext : parts'.text = parts.text) : parts' = parts := by
  have htake : takeDice? (parts.text ++ []) = some (parts, []) := h.takeDice?_append (by simp)
  have htake' : takeDice? (parts'.text ++ []) = some (parts', []) := h'.takeDice?_append (by simp)
  rw [htext, htake] at htake'
  cases htake'
  rfl

/-- The selector of a proper term always has a meaning. -/
theorem IsProper.exists_selects (h : parts.IsProper) : ∃ selection, parts.Selects selection := by
  cases hkeep : parts.keep with
  | none => exact ⟨none, .all hkeep⟩
  | some k =>
    have hmeaning : ∀ selector ∈ keepSelectors, ∃ keep : Keep, selector ∈ keep.selectors := by
      intro selector hs
      simp only [keepSelectors, List.mem_cons, List.not_mem_nil, or_false] at hs
      rcases hs with rfl | rfl | rfl
      · exact ⟨.highest, by simp [Keep.selectors]⟩
      · exact ⟨.lowest, by simp [Keep.selectors]⟩
      · exact ⟨.highest, by simp [Keep.selectors]⟩
    obtain ⟨keep, hmem⟩ := hmeaning k.1 (h.keep k.1 k.2 hkeep).1
    exact ⟨_, .some hkeep hmem⟩

end Text.DiceParts

namespace DiceTerm

variable {parts : DiceParts} {selection : Option (Keep × Int)} {text : Text} {position : Nat}

/-- A selector is read as the selection that it stands for. -/
theorem readKeep_of_mem {keep : Keep} {selector digits : Text} (hs : selector ∈ keep.selectors)
    (hlength : digits.length ≤ maxNumeralDigits) :
    readKeep selector digits = .ok (keep, (digits.digitsValue : Int)) := by
  rw [readKeep, Text.readNatural_eq_ok_iff.mpr ⟨hlength, rfl⟩]
  cases keep with
  | highest =>
    have hne : selector ≠ "kl" := by
      rintro rfl
      revert hs
      decide
    exact congrArg (fun keep => Except.ok (keep, _)) (if_neg hne)
  | lowest =>
    cases List.mem_singleton.mp hs
    rfl

theorem mapM_readKeep_of_selects (h : parts.Selects selection) (hr : parts.IsReadable) :
    (parts.keep.mapM fun k => readKeep k.1 k.2) = .ok selection := by
  cases h with
  | all hkeep =>
    rw [hkeep]
    rfl
  | some hkeep hs =>
    have hread := readKeep_of_mem hs (hr.keep_length _ hkeep)
    rw [hkeep]
    show some <$> readKeep _ _ = _
    rw [hread]
    rfl

/-- What the numerals of a term decide, if none of them is too long: first whether it asks for too
many dice, and then whether its dice have sides. -/
theorem ofParts_of_isReadable (hr : parts.IsReadable) (h : parts.Selects selection) (text : Text)
    (position : Nat) :
    ofParts parts text position =
      if maxDice < parts.asked then .error .tooManyDice
      else if parts.sides.digitsValue = 0 then .error (.malformed (.noSides text))
      else .ok { count := parts.asked, sides := parts.sides.digitsValue, text, position
                 keep := selection } := by
  rw [ofParts_eq, DiceParts.readCount_eq_ok_iff.mpr ⟨hr.count_length, rfl⟩,
    Text.readNatural_eq_ok_iff.mpr ⟨hr.sides_length, rfl⟩, mapM_readKeep_of_selects h hr]
  rfl

/-- The checks of a term never find that it is none. -/
theorem ofParts_ne_notDice (parts : DiceParts) (text : Text) (position : Nat) (other : Text) :
    ofParts parts text position ≠ .error (.malformed (.notDice other)) := by
  intro h
  rw [ofParts_eq] at h
  rcases bind_eq_error_iff.mp h with h | ⟨count, _, h⟩
  · cases (DiceParts.readCount_eq_error_iff.mp h).2
  split at h
  · cases h
  rcases bind_eq_error_iff.mp h with h | ⟨sides, _, h⟩
  · cases (Text.readNatural_eq_error_iff.mp h).2
  split at h
  · cases h
  rcases bind_eq_error_iff.mp h with h | ⟨keep, _, h⟩
  · cases (mapM_readKeep_eq_error_iff.mp h).2
  · cases h

/-! ## Written terms -/

/-- The text of a term that is written with its numbers. -/
def written (count sides : Nat) (keep : Option (Keep × Nat)) : Text :=
  Text.natural count ++ CodePoint.ofChar 'd' :: Text.natural sides ++
    match keep with
    | none => []
    | some (keep, n) => keep.selector ++ Text.natural n

/-- The parts of a term that is written with its numbers. -/
def writtenParts (count sides : Nat) (keep : Option (Keep × Nat)) : DiceParts :=
  ⟨Text.natural count, Text.natural sides, keep.map fun k => (k.1.selector, Text.natural k.2)⟩

variable {count sides : Nat} {keep : Option (Keep × Nat)}

theorem text_writtenParts (count sides : Nat) (keep : Option (Keep × Nat)) :
    (writtenParts count sides keep).text = written count sides keep := by
  cases keep <;> rfl

theorem isProper_writtenParts (count sides : Nat) (keep : Option (Keep × Nat)) :
    (writtenParts count sides keep).IsProper where
  count := (Text.isDigits_natural count).2
  sides := Text.isDigits_natural sides
  keep selector digits h := by
    obtain ⟨⟨keep, n⟩, -, hk⟩ := Option.map_eq_some_iff.mp h
    cases hk
    exact ⟨keep.selector_mem.2, Text.isDigits_natural n⟩

theorem selects_writtenParts (count sides : Nat) (keep : Option (Keep × Nat)) :
    (writtenParts count sides keep).Selects (keep.map fun k => (k.1, (k.2 : Int))) := by
  cases keep with
  | none => exact .all rfl
  | some k =>
    have hselects : (writtenParts count sides (some k)).Selects
        (some (k.1, ((Text.natural k.2).digitsValue : Int))) := .some rfl k.1.selector_mem.1
    rwa [Text.digitsValue_natural] at hselects

theorem asked_writtenParts (count sides : Nat) (keep : Option (Keep × Nat)) :
    (writtenParts count sides keep).asked = count :=
  (if_neg (Text.isDigits_natural count).1).trans (Text.digitsValue_natural count)

/-- The numeral of a count within the limit of dice is short. -/
theorem isReadable_writtenParts (hcount : count ≤ maxDice)
    (hsides : (Text.natural sides).length ≤ maxNumeralDigits)
    (hkeep : ∀ k ∈ keep, (Text.natural k.2).length ≤ maxNumeralDigits) :
    (writtenParts count sides keep).IsReadable where
  count_length := by
    have hlt : count < tenTo 4 := Nat.lt_of_le_of_lt hcount (by decide)
    exact ((Text.length_natural_le_iff (by decide)).mpr hlt).trans (by decide)
  sides_length := hsides
  keep_length k hk := by
    obtain ⟨k, hmem, rfl⟩ := Option.map_eq_some_iff.mp hk
    exact hkeep k hmem

/-- A proper term is one token. -/
theorem tokens_text (h : parts.IsProper) :
    Text.tokens parts.text = .ok [⟨.dice parts.text, 0⟩] := by
  have hproper : ∀ p ∈ [Piece.lexeme (.dice parts.text)], p.IsProper := by
    intro p hp
    cases List.mem_singleton.mp hp
    exact ⟨parts, h, rfl⟩
  have hpieces := Text.pieces_flatMap hproper (.singleton _)
  rw [List.flatMap_singleton] at hpieces
  rw [Text.tokens, show Text.pieces parts.text = _ from hpieces]
  rfl

/-- **Tokens are read as the dice terms that they are.** The text of a dice token can be taken apart
in exactly one way, and it is never refused for being no dice term. If none of its numerals is too
long, too many dice are refused, then dice without sides, and every other term is read with its
count, its sides and its selection, at its place.

**Written terms are tokens.** A term within the limits that is written with its numbers is a single
token, and is read with these numbers. -/
theorem ofText_of_token :
    (∀ (t : Text) (tokens : List Token) (u : Token), t.tokens = .ok tokens → u ∈ tokens →
      u.lexeme.isDice = true →
      (∀ text, ofText u.text u.position ≠ .error (.malformed (.notDice text))) ∧
      ∃ parts : DiceParts, parts.IsProper ∧ parts.text = u.text ∧
        (∀ other : DiceParts, other.IsProper → other.text = u.text → other = parts) ∧
        ∃ selection, parts.Selects selection ∧
          (parts.IsReadable → ofText u.text u.position =
            if maxDice < parts.asked then .error .tooManyDice
            else if parts.sides.digitsValue = 0 then .error (.malformed (.noSides u.text))
            else .ok { count := parts.asked, sides := parts.sides.digitsValue, text := u.text
                       position := u.position, keep := selection })) ∧
    ∀ (count sides : Nat) (keep : Option (Keep × Nat)), count ≤ maxDice → 1 ≤ sides →
      (Text.natural sides).length ≤ maxNumeralDigits →
      (∀ k ∈ keep, (Text.natural k.2).length ≤ maxNumeralDigits) →
      (written count sides keep).tokens = .ok [⟨.dice (written count sides keep), 0⟩] ∧
      ofText (written count sides keep) 0 =
        .ok { count, sides, text := written count sides keep, position := 0
              keep := keep.map fun k => (k.1, (k.2 : Int)) } := by
  constructor
  · intro t tokens u ht hu hdice
    obtain ⟨parts, hparts, htext⟩ : ∃ parts : DiceParts, parts.IsProper ∧ parts.text = u.text := by
      obtain ⟨ps, hps, rfl⟩ := Text.exists_pieces_of_tokens ht
      have hproper := Text.isProper_of_pieces hps _ (mem_of_mem_placed hu)
      obtain ⟨lexeme, position⟩ := u
      cases lexeme with
      | dice text =>
        obtain ⟨parts, hparts, htext⟩ := hproper
        exact ⟨parts, hparts, htext.symm⟩
      | _ => cases hdice
    obtain ⟨selection, hselects⟩ := hparts.exists_selects
    rw [← htext, ofText_text hparts]
    exact ⟨ofParts_ne_notDice parts _ _, parts, hparts, rfl,
      fun other hother htext' => hparts.eq_of_text_eq hother htext', selection, hselects,
      fun hr => ofParts_of_isReadable hr hselects _ _⟩
  · intro count sides keep hcount hsides hsidesLength hkeepLength
    have hproper := isProper_writtenParts count sides keep
    have hreadable := isReadable_writtenParts hcount hsidesLength hkeepLength
    have hread := ofParts_of_isReadable hreadable (selects_writtenParts count sides keep)
      (written count sides keep) 0
    have hvalue : (writtenParts count sides keep).sides.digitsValue = sides :=
      Text.digitsValue_natural sides
    rw [asked_writtenParts, hvalue, if_neg (Nat.not_lt.mpr hcount),
      if_neg (Nat.ne_of_gt hsides)] at hread
    rw [← text_writtenParts] at hread ⊢
    exact ⟨tokens_text hproper, (ofText_text hproper 0).trans hread⟩

/-- A token whose count is written in another script, and a term with all its numbers. -/
theorem ofText_of_token_twoScripts :
    Text.tokens "d6+٢d20kl1" =
        .ok [⟨.dice "d6", 0⟩, ⟨.sign .plus, 2⟩, ⟨.dice "٢d20kl1", 3⟩] ∧
      (⟨.dice "٢d20kl1", 3⟩ : Token) ∈
        [⟨.dice "d6", 0⟩, ⟨.sign .plus, 2⟩, (⟨.dice "٢d20kl1", 3⟩ : Token)] ∧
      (∀ text, ofText "٢d20kl1" 3 ≠ .error (.malformed (.notDice text))) ∧
      2 ≤ maxDice ∧ 1 ≤ 20 ∧ (Text.natural 20).length ≤ maxNumeralDigits ∧
      (∀ k ∈ some (Keep.lowest, 1), (Text.natural k.2).length ≤ maxNumeralDigits) ∧
      Text.tokens "2d20kl1" = .ok [⟨.dice "2d20kl1", 0⟩] ∧
      ofText "2d20kl1" 0 = .ok ⟨2, 20, "2d20kl1", 0, some (.lowest, 1), []⟩ := by
  have htokens : Text.tokens "d6+٢d20kl1" =
      .ok [⟨.dice "d6", 0⟩, ⟨.sign .plus, 2⟩, ⟨.dice "٢d20kl1", 3⟩] := by
    decide +kernel
  have hmem : (⟨.dice "٢d20kl1", 3⟩ : Token) ∈
      [⟨.dice "d6", 0⟩, ⟨.sign .plus, 2⟩, (⟨.dice "٢d20kl1", 3⟩ : Token)] := by
    decide
  have hsides : (Text.natural 20).length ≤ maxNumeralDigits := by decide
  have hkeep : ∀ k ∈ some (Keep.lowest, 1), (Text.natural k.2).length ≤ maxNumeralDigits := by
    decide
  obtain ⟨hform, -⟩ := ofText_of_token.1 _ _ _ htokens hmem rfl
  obtain ⟨hone, hread⟩ :=
    ofText_of_token.2 2 20 (some (.lowest, 1)) (by decide) (by decide) hsides hkeep
  exact ⟨htokens, hmem, hform, by decide, by decide, hsides, hkeep, hone, hread⟩

end DiceTerm

end DiceBot
