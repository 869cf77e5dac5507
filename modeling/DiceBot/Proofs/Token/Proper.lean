import Mathlib.Data.List.Chain
import Mathlib.Data.List.TakeWhile
import DiceBot.Token.Lexer

/-!
# Proper pieces

What the lexemes of expressions look like, said without the reader that finds them, and what the
pieces of a text have in common: each is proper, and no run of blanks is followed by another.

## Main definitions

* `Text.IsDigits`, `Text.IsNumber`, `Text.DiceParts.IsProper`: the written numbers and dice terms
* `Piece.IsProper`: the pieces that an expression's text may be cut into
* `Piece.MayPrecede`: the pieces that keep apart without anything between them
* `CodePoint.isFree`: the code points that are pieces, or fronts that a piece may do without

## Main results

* `Piece.IsProper.mem_text`: the code points of a piece
* `Text.cut_append`, `Text.isProper_of_mem_cut`, `Text.isChain_cut`: the pieces of a text
-/

namespace DiceBot

/-! ## Code points -/

namespace CodePoint

/-- A code point that a number or a dice term before it would take in. -/
def continuesOperand (c : CodePoint) : Bool :=
  c.isDigit || c = '.' || c = 'd' || c = 'k'

/-- No decimal digit is white space. -/
theorem isBlank_of_isDigit {c : CodePoint} (h : c.isDigit = true) : c.isBlank = false := by
  have apart : ∀ r ∈ blankRanges, ∀ first ∈ digitZeros, r.2 < first ∨ first + 10 ≤ r.1 := by
    decide
  simp only [isDigit, digit?, Option.isSome_map, List.find?_isSome] at h
  obtain ⟨first, hf, hc⟩ := h
  simp only [isBlank, isIn, List.any_eq_false]
  intro r hr hb
  have := apart r hr first hf
  simp only [Bool.and_eq_true, decide_eq_true_eq] at hc hb
  omega

theorem continuesOperand_of_isBlank {c : CodePoint} (h : c.isBlank = true) :
    c.continuesOperand = false := by
  have hd : c.isDigit = false := by
    by_contra hd
    rw [isBlank_of_isDigit (by simpa using hd)] at h
    cases h
  simp only [continuesOperand, hd, Bool.false_or, Bool.or_eq_false_iff, decide_eq_false_iff_not]
  refine ⟨⟨?_, ?_⟩, ?_⟩ <;> rintro rfl <;> revert h <;> decide

/-- A code point that is a piece, or the front of one that remains without it. -/
def isFree (c : CodePoint) : Bool :=
  c.isDigit || (Lexeme.ofMark? c).isSome || c.isBlank

theorem isFree_of_isDigit {c : CodePoint} (h : c.isDigit = true) : c.isFree = true := by
  simp [isFree, h]

theorem isFree_of_isBlank {c : CodePoint} (h : c.isBlank = true) : c.isFree = true := by
  simp [isFree, h]

end CodePoint

/-- The code points that are marks. -/
theorem Lexeme.ofMark?_eq_some_iff {c : CodePoint} {l : Lexeme} :
    ofMark? c = some l ↔ l.text = [c] ∧ l.isNumber = false ∧ l.isDice = false := by
  constructor
  · intro h
    refine ⟨Text.text_ofMark? h, ?_⟩
    unfold ofMark? at h
    repeat' split at h
    all_goals cases h
    all_goals exact ⟨rfl, rfl⟩
  · rintro ⟨ht, hn, hd⟩
    obtain text | text | s | s | _ | _ := l
    · cases hn
    · cases hd
    · cases s <;> cases ht <;> decide
    · cases s <;> cases ht <;> decide
    · cases ht; decide
    · cases ht; decide

namespace Text

/-! ## Numbers and dice terms -/

/-- One digit or more, and nothing else. -/
def IsDigits (t : Text) : Prop :=
  t ≠ [] ∧ ∀ c ∈ t, c.isDigit = true

/-- A number: digits, or a point with digits behind it and perhaps before it. -/
inductive IsNumber : Text → Prop where
  | whole {digits : Text} : digits.IsDigits → IsNumber digits
  | pointed {whole decimals : Text} : (∀ c ∈ whole, c.isDigit = true) → decimals.IsDigits →
      IsNumber (whole ++ CodePoint.ofChar '.' :: decimals)

/-- The parts of a dice term as they may be written. -/
structure DiceParts.IsProper (parts : DiceParts) : Prop where
  count : ∀ c ∈ parts.count, c.isDigit = true
  sides : parts.sides.IsDigits
  keep : ∀ selector digits, parts.keep = some (selector, digits) →
    selector ∈ keepSelectors ∧ digits.IsDigits

/-- The code points of a dice term. -/
theorem DiceParts.IsProper.mem_text {parts : DiceParts} (h : parts.IsProper) {c : CodePoint}
    (hc : c ∈ parts.text) : c.isDigit = true ∨ c ∈ Text.ofString "dkhl" := by
  have hselectors : ∀ s ∈ keepSelectors, ∀ c ∈ s, c ∈ Text.ofString "dkhl" := by decide
  rw [DiceParts.text, List.append_assoc, List.cons_append, List.mem_append, List.mem_cons,
    List.mem_append] at hc
  rcases hc with hc | rfl | hc | hc
  · exact .inl (h.count c hc)
  · exact .inr (by decide)
  · exact .inl (h.sides.2 c hc)
  · split at hc
    · cases hc
    · rename_i selector digits hkeep
      obtain ⟨hs, hd⟩ := h.keep selector digits hkeep
      rcases List.mem_append.mp hc with hc | hc
      · exact .inr (hselectors selector hs c hc)
      · exact .inl (hd.2 c hc)

theorem mem_takeDigits {t : Text} {c : CodePoint} (h : c ∈ (takeDigits t).1) :
    c.isDigit = true :=
  List.mem_takeWhile_imp h

theorem takeKeep?_isProper {t selector digits rest : Text}
    (h : takeKeep? t = some (selector, digits, rest)) :
    selector ∈ keepSelectors ∧ digits.IsDigits := by
  obtain ⟨s, hs, h⟩ := List.exists_of_findSome?_eq_some h
  cases hd : t.dropStart? s with
  | none => simp [hd] at h
  | some behind =>
    simp only [hd] at h
    split at h
    · cases h
    · rename_i hne
      cases h
      exact ⟨hs, hne, fun c hc => mem_takeDigits hc⟩

/-- The parts of a dice term that a text begins with are proper. -/
theorem takeDice?_isProper {t rest : Text} {parts : DiceParts}
    (h : takeDice? t = some (parts, rest)) : parts.IsProper := by
  simp only [takeDice?] at h
  split at h
  · cases h
  split at h
  · split at h
    · cases h
    · rename_i hs
      split at h
      · rename_i hk
        cases h
        refine ⟨fun c hc => mem_takeDigits hc, ⟨hs, fun c hc => mem_takeDigits hc⟩, ?_⟩
        intro _ _ he
        cases he
        exact takeKeep?_isProper hk
      · cases h
        exact ⟨fun c hc => mem_takeDigits hc, ⟨hs, fun c hc => mem_takeDigits hc⟩, by simp⟩
  · cases h

/-- What a text begins with is a number if it is taken for one. -/
theorem takeNumber?_isNumber {t number rest : Text} (h : takeNumber? t = some (number, rest)) :
    number.IsNumber := by
  have plain : ∀ {n r : Text},
      (if (takeDigits t).1 = [] then none else some ((takeDigits t).1, (takeDigits t).2))
        = some (n, r) → n.IsNumber := by
    intro n r hp
    split at hp
    · cases hp
    · rename_i hne
      cases hp
      exact .whole ⟨hne, fun c hc => mem_takeDigits hc⟩
  simp only [takeNumber?] at h
  split at h
  · exact plain h
  split at h
  · split at h
    · exact plain h
    · rename_i hne
      cases h
      exact .pointed (fun c hc => mem_takeDigits hc) ⟨hne, fun c hc => mem_takeDigits hc⟩
  · exact plain h

end Text

/-! ## Pieces -/

/-- Whether a lexeme is an operand of its own: a number or a dice term. -/
def Lexeme.isLeaf (l : Lexeme) : Bool :=
  l.isNumber || l.isDice

namespace Piece

/-- Whether a piece is a number or a dice term. -/
def isLeaf : Piece → Bool
  | lexeme l => l.isLeaf
  | blanks _ => false

/-- Whether a piece is a run of blanks. -/
def isBlanks : Piece → Bool
  | lexeme _ => false
  | blanks _ => true

/-- The pieces that an expression's text may be cut into. -/
def IsProper : Piece → Prop
  | lexeme (.number text) => text.IsNumber
  | lexeme (.dice text) => ∃ parts : Text.DiceParts, parts.IsProper ∧ text = parts.text
  | lexeme _ => True
  | blanks run => run ≠ [] ∧ ∀ c ∈ run, c.isBlank = true

/-- A piece that may stand directly before another: they are not both leaves, and not both
blanks. -/
def MayPrecede (p q : Piece) : Prop :=
  (p.isLeaf = true → q.isLeaf = false) ∧ (p.isBlanks = true → q.isBlanks = false)

/-- The code points of a piece. Only dice terms have letters. -/
theorem IsProper.mem_text {p : Piece} (h : p.IsProper) {c : CodePoint} (hc : c ∈ p.text) :
    c.isFree = true ∨ c = '.' ∨
      (∃ text, p = .lexeme (.dice text)) ∧ c ∈ Text.ofString "dkhl" := by
  cases p with
  | blanks run => exact .inl (CodePoint.isFree_of_isBlank (h.2 c hc))
  | lexeme l =>
    cases l with
    | number text =>
      cases h with
      | whole hd => exact .inl (CodePoint.isFree_of_isDigit (hd.2 c hc))
      | pointed hw hd =>
        rcases List.mem_append.mp hc with hc | hc
        · exact .inl (CodePoint.isFree_of_isDigit (hw c hc))
        rcases List.mem_cons.mp hc with hc | hc
        · exact .inr (.inl hc)
        · exact .inl (CodePoint.isFree_of_isDigit (hd.2 c hc))
    | dice text =>
      obtain ⟨parts, hparts, rfl⟩ := h
      rcases hparts.mem_text hc with hc | hc
      · exact .inl (CodePoint.isFree_of_isDigit hc)
      · exact .inr (.inr ⟨⟨_, rfl⟩, hc⟩)
    | sign s =>
      left
      cases s <;> cases List.mem_singleton.mp hc <;> decide
    | scaling s =>
      left
      cases s <;> cases List.mem_singleton.mp hc <;> decide
    | opening => cases List.mem_singleton.mp hc; exact .inl (by decide)
    | closing => cases List.mem_singleton.mp hc; exact .inl (by decide)

end Piece

namespace Text

/-- A run of blanks ends where no blank follows. -/
theorem takePiece?_isProper {t rest : Text} {p : Piece} (h : takePiece? t = some (p, rest)) :
    p.IsProper ∧ (p.isBlanks = true → ∀ c ∈ rest.head?, c.isBlank = false) := by
  simp only [takePiece?] at h
  split at h
  · rename_i parts r hd
    cases h
    exact ⟨⟨parts, takeDice?_isProper hd, rfl⟩, by simp [Piece.isBlanks]⟩
  split at h
  · rename_i n r hn
    cases h
    exact ⟨takeNumber?_isNumber hn, by simp [Piece.isBlanks]⟩
  split at h
  · cases h
  split at h
  · rename_i l hl
    cases h
    obtain ⟨_, hn, hd⟩ := Lexeme.ofMark?_eq_some_iff.mp hl
    refine ⟨?_, by simp [Piece.isBlanks]⟩
    cases l with
    | number text => cases hn
    | dice text => cases hd
    | _ => trivial
  split at h
  · rename_i c r _ _ _ _ hc
    cases h
    refine ⟨⟨by simp, ?_⟩, fun _ c' hc' => ?_⟩
    · rintro c' (_ | ⟨_, hc'⟩)
      · exact hc
      · exact List.mem_takeWhile_imp hc'
    · have := List.head?_dropWhile_not CodePoint.isBlank r
      rw [Option.mem_def.mp hc'] at this
      simpa using this
  · cases h

theorem cut_of_none {t : Text} (h : t.takePiece? = none) : t.cut = ([], t) := by
  rw [cut]
  split
  · rfl
  · simp_all

theorem cut_of_some {t rest : Text} {p : Piece} (h : t.takePiece? = some (p, rest)) :
    t.cut = (p :: rest.cut.1, rest.cut.2) := by
  rw [cut]
  split
  · simp_all
  · rename_i he
    rw [h] at he
    cases he
    rfl

/-- The pieces of a text and what is left are the text. -/
theorem cut_append (t : Text) : t.cut.1.flatMap Piece.text ++ t.cut.2 = t := by
  induction hn : t.length using Nat.strong_induction_on generalizing t with
  | _ n ih =>
    cases h : t.takePiece? with
    | none => simp [cut_of_none h]
    | some found =>
      obtain ⟨p, rest⟩ := found
      have hrest := ih rest.length (hn ▸ takePiece?_length h) rest rfl
      rw [cut_of_some h, List.flatMap_cons, List.append_assoc, hrest]
      exact (takePiece?_append h).1.symm

/-- The pieces of a text are proper. -/
theorem isProper_of_mem_cut {t : Text} : ∀ p ∈ t.cut.1, p.IsProper := by
  induction hn : t.length using Nat.strong_induction_on generalizing t with
  | _ n ih =>
    cases h : t.takePiece? with
    | none => simp [cut_of_none h]
    | some found =>
      obtain ⟨p, rest⟩ := found
      rw [cut_of_some h]
      rintro q (_ | ⟨_, hq⟩)
      · exact (takePiece?_isProper h).1
      · exact ih rest.length (hn ▸ takePiece?_length h) rfl q hq

/-- No run of blanks is followed by another. -/
theorem isChain_cut (t : Text) :
    t.cut.1.IsChain fun p q => p.isBlanks = true → q.isBlanks = false := by
  induction hn : t.length using Nat.strong_induction_on generalizing t with
  | _ n ih =>
    cases h : t.takePiece? with
    | none => simp [cut_of_none h]
    | some found =>
      obtain ⟨p, rest⟩ := found
      rw [cut_of_some h]
      refine List.isChain_cons.mpr
        ⟨fun q hq hp => ?_, ih rest.length (hn ▸ takePiece?_length h) rest rfl⟩
      have hmem : q ∈ rest.cut.1 := List.mem_of_mem_head? hq
      have hproper := isProper_of_mem_cut q hmem
      cases q with
      | lexeme l => rfl
      | blanks run =>
        obtain ⟨hne, hrun⟩ := hproper
        obtain ⟨c, run, rfl⟩ := List.exists_cons_of_ne_nil hne
        obtain ⟨ps, hps⟩ := List.head?_eq_some_iff.mp hq
        have hhead : c ∈ rest.head? := by
          rw [← cut_append rest, hps]
          rfl
        have := (takePiece?_isProper h).2 hp c hhead
        rw [hrun c (by simp)] at this
        cases this

/-! ### Texts that are cut up to their end -/

theorem pieces_eq_ok_iff {t : Text} {ps : List Piece} : t.pieces = .ok ps ↔ t.cut = (ps, []) := by
  unfold pieces
  split
  · rename_i h
    simp [h]
  · rename_i h
    simp [h]

theorem exists_pieces_of_tokens {t : Text} {tokens : List Token} (h : t.tokens = .ok tokens) :
    ∃ ps, t.pieces = .ok ps ∧ placed 0 ps = tokens := by
  unfold Text.tokens at h
  cases hpieces : t.pieces with
  | error cause =>
    rw [hpieces] at h
    cases h
  | ok ps =>
    rw [hpieces] at h
    exact ⟨ps, rfl, Except.ok.inj h⟩

theorem flatMap_of_pieces {t : Text} {ps : List Piece} (h : t.pieces = .ok ps) :
    ps.flatMap Piece.text = t := by
  have happend := cut_append t
  rwa [pieces_eq_ok_iff.mp h, List.append_nil] at happend

theorem isProper_of_pieces {t : Text} {ps : List Piece} (h : t.pieces = .ok ps) :
    ∀ p ∈ ps, p.IsProper := by
  have hproper := isProper_of_mem_cut (t := t)
  rwa [pieces_eq_ok_iff.mp h] at hproper

/-- The code points of a text that is cut up to its end. -/
theorem isFree_or_of_pieces {t : Text} {ps : List Piece} (h : t.pieces = .ok ps) {c : CodePoint}
    (hc : c ∈ t) : c.isFree = true ∨ c = '.' ∨ c ∈ Text.ofString "dkhl" := by
  rw [← flatMap_of_pieces h] at hc
  obtain ⟨p, hp, hc⟩ := List.mem_flatMap.mp hc
  exact ((isProper_of_pieces h p hp).mem_text hc).imp_right (Or.imp_right And.right)

/-- A code point that begins no piece and belongs to no operand does not occur. -/
theorem notMem_of_pieces {t : Text} {ps : List Piece} (h : t.pieces = .ok ps) {c : CodePoint}
    (hc : ¬ (c.isFree = true ∨ c = '.' ∨ c ∈ Text.ofString "dkhl")) : c ∉ t :=
  mt (isFree_or_of_pieces h) hc

theorem isChain_of_pieces {t : Text} {ps : List Piece} (h : t.pieces = .ok ps) :
    ps.IsChain fun p q => p.isBlanks = true → q.isBlanks = false := by
  have hchain := isChain_cut t
  rwa [pieces_eq_ok_iff.mp h] at hchain

end Text

end DiceBot
