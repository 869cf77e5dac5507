import DiceBot.Fault
import DiceBot.Text.Blank
import DiceBot.Text.Digit
import DiceBot.Token.Basic

/-!
# Reading tokens

A text is cut into pieces from the left. At each place a dice term is taken if one begins there,
else a number, else an operator or a parenthesis, else a run of blanks; each of them is taken as
long as it goes. A dice term takes its keep selector only with a number behind it.

## Main definitions

* `Text.takeDice?`, `Text.takeNumber?`, `Text.takePiece?`: the piece that a text begins with
* `Text.cut`: the pieces of a text, and what is left where none begins
* `Text.pieces`, `Text.tokens`: the pieces and the tokens of a text
* `Text.isRoll`, `Text.isArithmetic`: which texts are commands

## Main results

* `Text.takePiece?_length`: a piece takes something away
-/

namespace DiceBot

namespace Text

/-- The digits that a text begins with, and the rest. -/
def takeDigits (t : Text) : Text × Text :=
  (t.takeWhile CodePoint.isDigit, t.dropWhile CodePoint.isDigit)

/-- The selectors for the dice to keep, the longer ones first. -/
def keepSelectors : List Text :=
  ["kh", "kl", "k"]

/-- The selector that a text begins with if digits follow it, those digits, and the rest. -/
def takeKeep? (t : Text) : Option (Text × Text × Text) :=
  keepSelectors.findSome? fun selector =>
    match t.dropStart? selector with
    | none => none
    | some rest =>
      let (digits, rest) := takeDigits rest
      if digits = [] then none else some (selector, digits, rest)

/-- The parts of a dice term as they are written. -/
structure DiceParts where
  /-- The number of dice; it may be missing. -/
  count : Text
  /-- The number of sides. -/
  sides : Text
  /-- The selector and the number of dice to keep. -/
  keep : Option (Text × Text)
deriving DecidableEq

/-- The dice term of some parts. -/
def DiceParts.text (parts : DiceParts) : Text :=
  parts.count ++ CodePoint.ofChar 'd' :: parts.sides ++
    match parts.keep with
    | none => []
    | some (selector, digits) => selector ++ digits

/-- The dice term that a text begins with, and the rest. -/
def takeDice? (t : Text) : Option (DiceParts × Text) :=
  let (count, rest) := takeDigits t
  match rest with
  | [] => none
  | c :: rest =>
    if c = 'd' then
      let (sides, rest) := takeDigits rest
      if sides = [] then none
      else match takeKeep? rest with
        | some (selector, digits, rest) => some (⟨count, sides, some (selector, digits)⟩, rest)
        | none => some (⟨count, sides, none⟩, rest)
    else none

/-- The number that a text begins with, and the rest; a point counts only with digits behind. -/
def takeNumber? (t : Text) : Option (Text × Text) :=
  let (whole, rest) := takeDigits t
  let plain : Option (Text × Text) := if whole = [] then none else some (whole, rest)
  match rest with
  | [] => plain
  | c :: decimals =>
    if c = '.' then
      let (digits, rest) := takeDigits decimals
      if digits = [] then plain else some (whole ++ CodePoint.ofChar '.' :: digits, rest)
    else plain

/-- The piece that a text begins with, and the rest. -/
def takePiece? (t : Text) : Option (Piece × Text) :=
  match takeDice? t with
  | some (parts, rest) => some (.lexeme (.dice parts.text), rest)
  | none =>
    match takeNumber? t with
    | some (number, rest) => some (.lexeme (.number number), rest)
    | none =>
      match t with
      | [] => none
      | c :: rest =>
        match Lexeme.ofMark? c with
        | some l => some (.lexeme l, rest)
        | none =>
          if c.isBlank then
            some (.blanks (c :: rest.takeWhile CodePoint.isBlank),
              rest.dropWhile CodePoint.isBlank)
          else none

theorem takeDigits_append (t : Text) : (takeDigits t).1 ++ (takeDigits t).2 = t :=
  List.takeWhile_append_dropWhile

theorem dropStart?_eq_some {start t rest : Text} (h : t.dropStart? start = some rest) :
    t = start ++ rest := by
  simp only [dropStart?] at h
  split at h
  · rename_i hp
    obtain ⟨r, rfl⟩ := List.isPrefixOf_iff_prefix.mp hp
    simp at h
    rw [h]
  · simp at h

/-- A selector and the digits behind it are what the text begins with. -/
theorem takeKeep?_append {t selector digits rest : Text}
    (h : takeKeep? t = some (selector, digits, rest)) : t = selector ++ digits ++ rest := by
  simp only [takeKeep?, List.findSome?_eq_some_iff] at h
  obtain ⟨_, s, _, _, hs, _⟩ := h
  split at hs
  · simp at hs
  · rename_i r hr
    split at hs
    · simp at hs
    · simp only [Option.some.injEq, Prod.mk.injEq] at hs
      obtain ⟨rfl, rfl, rfl⟩ := hs
      rw [dropStart?_eq_some hr, List.append_assoc, takeDigits_append]

/-- A dice term is what the text begins with. -/
theorem takeDice?_append {t : Text} {parts : DiceParts} {rest : Text}
    (h : takeDice? t = some (parts, rest)) : t = parts.text ++ rest := by
  simp only [takeDice?] at h
  split at h
  · simp at h
  · rename_i c r hr
    split at h
    · rename_i hc
      have ht : t = (takeDigits t).1 ++ CodePoint.ofChar 'd' :: r := by
        rw [← hc, ← hr, takeDigits_append]
      have hr' := takeDigits_append r
      split at h
      · simp at h
      · split at h <;> simp only [Option.some.injEq, Prod.mk.injEq] at h <;>
          obtain ⟨rfl, rfl⟩ := h
        · rename_i s d r' hk
          rw [takeKeep?_append hk] at hr'
          refine ht.trans ?_
          simpa [DiceParts.text] using hr'.symm
        · refine ht.trans ?_
          simp [DiceParts.text, hr']
    · simp at h

/-- A number is what the text begins with, and it is not empty. -/
theorem takeNumber?_append {t number rest : Text} (h : takeNumber? t = some (number, rest)) :
    t = number ++ rest ∧ number ≠ [] := by
  have ht := takeDigits_append t
  simp only [takeNumber?] at h
  split at h
  · rename_i hr
    split at h
    · simp at h
    · simp only [Option.some.injEq, Prod.mk.injEq] at h
      obtain ⟨rfl, rfl⟩ := h
      exact ⟨ht.symm, by assumption⟩
  · rename_i c r hr
    split at h
    · rename_i hc
      split at h
      · split at h
        · simp at h
        · simp only [Option.some.injEq, Prod.mk.injEq] at h
          obtain ⟨rfl, rfl⟩ := h
          exact ⟨ht.symm, by assumption⟩
      · simp only [Option.some.injEq, Prod.mk.injEq] at h
        obtain ⟨rfl, rfl⟩ := h
        refine ⟨?_, by simp⟩
        have hr' := takeDigits_append r
        rw [List.append_assoc, List.cons_append, hr', ← hc, ← hr, ht]
    · split at h
      · simp at h
      · simp only [Option.some.injEq, Prod.mk.injEq] at h
        obtain ⟨rfl, rfl⟩ := h
        exact ⟨ht.symm, by assumption⟩

/-- A mark is its own lexeme. -/
theorem text_ofMark? {c : CodePoint} {l : Lexeme} (h : Lexeme.ofMark? c = some l) :
    l.text = [c] := by
  simp only [Lexeme.ofMark?] at h
  split at h
  · rename_i hc; cases h; rw [hc]; rfl
  split at h
  · rename_i hc; cases h; rw [hc]; rfl
  split at h
  · rename_i hc; cases h; rw [hc]; rfl
  split at h
  · rename_i hc; cases h; rw [hc]; rfl
  split at h
  · rename_i hc; cases h; rw [hc]; rfl
  split at h
  · rename_i hc; cases h; rw [hc]; rfl
  · simp at h

/-- A piece is what the text begins with. -/
theorem takePiece?_append {t : Text} {p : Piece} {rest : Text}
    (h : takePiece? t = some (p, rest)) : t = p.text ++ rest ∧ p.text ≠ [] := by
  simp only [takePiece?] at h
  split at h
  · rename_i parts r hd
    simp only [Option.some.injEq, Prod.mk.injEq] at h
    obtain ⟨rfl, rfl⟩ := h
    exact ⟨takeDice?_append hd, by simp [Piece.text, Lexeme.text, DiceParts.text]⟩
  · split at h
    · rename_i n r hn
      simp only [Option.some.injEq, Prod.mk.injEq] at h
      obtain ⟨rfl, rfl⟩ := h
      exact takeNumber?_append hn
    · split at h
      · simp at h
      · split at h
        · rename_i l hl
          simp only [Option.some.injEq, Prod.mk.injEq] at h
          obtain ⟨rfl, rfl⟩ := h
          simp [Piece.text, text_ofMark? hl]
        · split at h
          · simp only [Option.some.injEq, Prod.mk.injEq] at h
            obtain ⟨rfl, rfl⟩ := h
            simp [Piece.text, List.takeWhile_append_dropWhile]
          · simp at h

/-- A piece takes something away. -/
theorem takePiece?_length {t : Text} {p : Piece} {rest : Text}
    (h : takePiece? t = some (p, rest)) : rest.length < t.length := by
  obtain ⟨rfl, hp⟩ := takePiece?_append h
  have := List.length_pos_iff.mpr hp
  simp only [List.length_append]
  omega

/-- The pieces of a text from the left, and what is left where no piece begins. -/
def cut (t : Text) : List Piece × Text :=
  match h : takePiece? t with
  | none => ([], t)
  | some (p, rest) =>
    have := takePiece?_length h
    let (pieces, left) := cut rest
    (p :: pieces, left)
termination_by t.length

/-- The pieces of a text; it is refused at the first code point where no piece begins. -/
def pieces (t : Text) : Except Malformed (List Piece) :=
  match t.cut with
  | (pieces, []) => .ok pieces
  | (_, c :: left) => .error (.unexpectedCharacter c (t.length - (left.length + 1)))

/-- The tokens of a text. -/
def tokens (t : Text) : Except Malformed (List Token) :=
  t.pieces.map (placed 0)

/-- Whether a text consists of tokens, a dice term among them. -/
def isRoll (t : Text) : Bool :=
  match t.tokens with
  | .ok tokens => tokens.any (·.lexeme.isDice)
  | .error _ => false

/-- Whether a text consists of tokens, at least one, without a dice term. -/
def isArithmetic (t : Text) : Bool :=
  match t.tokens with
  | .ok tokens => !tokens.isEmpty && tokens.all (!·.lexeme.isDice)
  | .error _ => false

end Text

end DiceBot
