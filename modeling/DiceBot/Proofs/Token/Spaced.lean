import DiceBot.Proofs.Token.Cut
import DiceBot.Proofs.Token.Layout

/-!
# Lexemes with blanks between them

Lexemes that are written one behind another, in any order and whether they make an expression or
not, are read again as they were, if one blank at least stands between each two of them: a blank is
neither taken in by a lexeme before it nor by one behind it.

## Main definitions

* `SpacedLexeme`: a lexeme and the blanks that are written behind it
* `SpacedLexeme.row`: lexemes written one behind another with their blanks

## Main results

* `SpacedLexeme.isChain_pieces`: lexemes with blanks between them keep apart
* `SpacedLexeme.placed_pieces`: where they stand
* `Text.tokens_of_spacedLexemes`: they are read as they were written
-/

namespace DiceBot

/-- The pieces that blanks are: one run, or nothing. -/
def Piece.ofBlanks (run : Text) : List Piece :=
  if run = [] then [] else [.blanks run]

/-- A lexeme and the blanks that are written behind it. -/
structure SpacedLexeme where
  /-- What is written. -/
  lexeme : Lexeme
  /-- The blanks behind it; there may be none. -/
  gap : Text
  isProper : (Piece.lexeme lexeme).IsProper
  isBlank : ∀ c ∈ gap, c.isBlank = true

namespace Piece

variable {run : Text}

theorem ofBlanks_of_ne (h : run ≠ []) : ofBlanks run = [.blanks run] :=
  if_neg h

theorem flatMap_ofBlanks (run : Text) : (ofBlanks run).flatMap text = run := by
  by_cases h : run = []
  · subst h
    rfl
  · rw [ofBlanks_of_ne h, List.flatMap_singleton]
    rfl

theorem isProper_of_mem_ofBlanks (hrun : ∀ c ∈ run, c.isBlank = true) :
    ∀ p ∈ ofBlanks run, p.IsProper := by
  intro p hp
  by_cases h : run = []
  · subst h
    cases hp
  · rw [ofBlanks_of_ne h, List.mem_singleton] at hp
    subst hp
    exact ⟨h, hrun⟩

theorem isLeaf_of_mem_ofBlanks {p : Piece} (h : p ∈ ofBlanks run) : p.isLeaf = false := by
  unfold ofBlanks at h
  split at h
  · cases h
  · cases List.mem_singleton.mp h
    rfl

/-- Blanks may stand before pieces that do not begin with blanks. -/
theorem isChain_ofBlanks_append (run : Text) {ps : List Piece} (hps : ps.IsChain MayPrecede)
    (hhead : ∀ p ∈ ps.head?, p.isBlanks = false) : (ofBlanks run ++ ps).IsChain MayPrecede := by
  by_cases h : run = []
  · subst h
    exact hps
  · rw [ofBlanks_of_ne h, List.singleton_append]
    exact List.isChain_cons.mpr ⟨fun p hp => ⟨nofun, fun _ => hhead p hp⟩, hps⟩

end Piece

theorem placed_ofBlanks_append (place : Nat) (run : Text) (ps : List Piece) :
    placed place (Piece.ofBlanks run ++ ps) = placed (place + run.length) ps := by
  by_cases h : run = []
  · subst h
    rfl
  · rw [Piece.ofBlanks_of_ne h]
    rfl

namespace SpacedLexeme

/-- The text of a lexeme with its blanks. -/
def text (item : SpacedLexeme) : Text :=
  item.lexeme.text ++ item.gap

/-- The text of lexemes one behind another, each with its blanks. -/
def row (items : List SpacedLexeme) : Text :=
  items.flatMap text

/-- The pieces of a lexeme with its blanks. -/
def pieces (item : SpacedLexeme) : List Piece :=
  .lexeme item.lexeme :: Piece.ofBlanks item.gap

variable {items : List SpacedLexeme}

theorem flatMap_pieces (items : List SpacedLexeme) :
    (items.flatMap pieces).flatMap Piece.text = row items := by
  rw [List.flatMap_assoc, row]
  refine congrArg (items.flatMap ·) (funext fun item => ?_)
  rw [pieces, List.flatMap_cons, Piece.flatMap_ofBlanks]
  rfl

theorem isProper_of_mem_pieces : ∀ p ∈ items.flatMap pieces, p.IsProper := by
  intro p hp
  obtain ⟨item, _, hp⟩ := List.mem_flatMap.mp hp
  rcases List.mem_cons.mp hp with rfl | hp
  · exact item.isProper
  · exact Piece.isProper_of_mem_ofBlanks item.isBlank p hp

/-- A row of lexemes does not begin with blanks. -/
theorem isBlanks_of_mem_head? : ∀ p ∈ (items.flatMap pieces).head?, p.isBlanks = false := by
  cases items with
  | nil => nofun
  | cons item items =>
    rintro p ⟨⟩
    rfl

/-- Lexemes with blanks between them keep apart. -/
theorem isChain_pieces (hgaps : ∀ item ∈ items.dropLast, item.gap ≠ []) :
    (items.flatMap pieces).IsChain Piece.MayPrecede := by
  induction items with
  | nil => exact .nil
  | cons item items ih =>
    rw [List.flatMap_cons, pieces, List.cons_append]
    by_cases hlast : items = []
    · subst hlast
      refine List.isChain_cons.mpr ⟨fun p hp => ?_, Piece.isChain_ofBlanks_append _ .nil nofun⟩
      rw [List.flatMap_nil, List.append_nil] at hp
      exact ⟨fun _ => Piece.isLeaf_of_mem_ofBlanks (List.mem_of_mem_head? hp), nofun⟩
    · rw [List.dropLast_cons_of_ne_nil hlast] at hgaps
      obtain ⟨hgap, hgaps⟩ := List.forall_mem_cons.mp hgaps
      have hchain := Piece.isChain_ofBlanks_append item.gap (ih hgaps) isBlanks_of_mem_head?
      refine List.isChain_cons.mpr ⟨fun p hp => ?_, hchain⟩
      rw [Piece.ofBlanks_of_ne hgap, List.singleton_append] at hp
      cases hp
      exact ⟨fun _ => rfl, nofun⟩

/-- The tokens of a row stand where the lexemes before them and their blanks end. -/
theorem placed_pieces (place : Nat) (items : List SpacedLexeme) :
    placed place (items.flatMap pieces) =
      items.mapIdx fun i item => ⟨item.lexeme, place + (row (items.take i)).length⟩ := by
  induction items generalizing place with
  | nil => rfl
  | cons item items ih =>
    rw [List.flatMap_cons, pieces, List.cons_append, placed, placed_ofBlanks_append, ih,
      List.mapIdx_cons]
    refine congrArg₂ List.cons ?_ (congrArg (List.mapIdx · items) ?_)
    · simp [row]
    · funext i other
      simp only [List.take_succ_cons, row, List.flatMap_cons, text, List.length_append,
        ← Nat.add_assoc]

end SpacedLexeme

namespace Text

/-- **Lexemes are read as they were written.** Let lexemes be written one behind another, with
blanks between each two of them and perhaps before the first and behind the last. The tokens of
this text are these lexemes, each at the end of what is written before it. -/
theorem tokens_of_spacedLexemes {front : Text} (hfront : ∀ c ∈ front, c.isBlank = true)
    {items : List SpacedLexeme} (hgaps : ∀ item ∈ items.dropLast, item.gap ≠ []) :
    tokens (front ++ SpacedLexeme.row items) =
      .ok (items.mapIdx fun i item =>
        ⟨item.lexeme, (front ++ SpacedLexeme.row (items.take i)).length⟩) := by
  have hpieces : pieces (front ++ SpacedLexeme.row items) =
      .ok (Piece.ofBlanks front ++ items.flatMap SpacedLexeme.pieces) := by
    have hchain := Piece.isChain_ofBlanks_append front (SpacedLexeme.isChain_pieces hgaps)
      SpacedLexeme.isBlanks_of_mem_head?
    have hproper : ∀ p ∈ Piece.ofBlanks front ++ items.flatMap SpacedLexeme.pieces, p.IsProper := by
      intro p hp
      rcases List.mem_append.mp hp with hp | hp
      · exact Piece.isProper_of_mem_ofBlanks hfront p hp
      · exact SpacedLexeme.isProper_of_mem_pieces p hp
    have htext := pieces_flatMap hproper hchain
    rwa [List.flatMap_append, Piece.flatMap_ofBlanks, SpacedLexeme.flatMap_pieces] at htext
  rw [tokens, hpieces]
  refine congrArg Except.ok ?_
  rw [placed_ofBlanks_append, SpacedLexeme.placed_pieces, Nat.zero_add]
  simp only [List.length_append]

/-- A dice term whose count is written in another script, a number without a whole part, and marks
that make no expression. -/
def scatteredLexemes : List SpacedLexeme :=
  [⟨.dice "٣d6kh2", "\n",
      ⟨⟨"٣", "6", some ("kh", "2")⟩,
        ⟨by decide, ⟨by decide, by decide⟩,
          by rintro _ _ ⟨⟩; exact ⟨by decide, by decide, by decide⟩⟩, rfl⟩,
      by decide⟩,
    ⟨.number ".5", " \t", @IsNumber.pointed [] "5" nofun ⟨by decide, by decide⟩, by decide⟩,
    ⟨.closing, "\u3000", trivial, by decide⟩,
    ⟨.sign .minus, [], trivial, nofun⟩]

theorem tokens_of_scatteredLexemes :
    (∀ c ∈ ofString "\u00a0", c.isBlank = true) ∧
      (∀ item ∈ scatteredLexemes.dropLast, item.gap ≠ []) ∧
      tokens "\u00a0٣d6kh2\n.5 \t)\u3000-" =
        .ok [⟨.dice "٣d6kh2", 1⟩, ⟨.number ".5", 8⟩, ⟨.closing, 12⟩, ⟨.sign .minus, 14⟩] := by
  have hfront : ∀ c ∈ ofString "\u00a0", c.isBlank = true := by decide
  have hgaps : ∀ item ∈ scatteredLexemes.dropLast, item.gap ≠ [] := by decide
  exact ⟨hfront, hgaps, tokens_of_spacedLexemes hfront hgaps⟩

end Text

end DiceBot
