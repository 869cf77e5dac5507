import DiceBot.Proofs.Token.Proper

/-!
# Cutting what was put together

Proper pieces that are written one after another are cut apart again, when no two leaves and no
two runs of blanks stand directly behind one another: a number or a dice term then takes in no
more than its own text, and neither does a run of blanks.

## Main definitions

* `Text.IsApart`: the texts that a number or a dice term before them takes nothing of
* `Piece.EndsBefore`: the texts of which a piece before them takes nothing

## Main results

* `Piece.IsProper.takePiece?_append`: a proper piece is taken as a whole
* `Text.pieces_flatMap`: pieces that keep apart are the pieces of their text
-/

namespace DiceBot

namespace Text

/-- A number or a dice term before the text takes nothing of it. -/
def IsApart (t : Text) : Prop :=
  ∀ c ∈ t.head?, c.continuesOperand = false

theorem IsApart.ne {t : Text} (h : t.IsApart) {c : CodePoint} (hc : c ∈ t.head?) :
    c.isDigit = false ∧ c ≠ '.' ∧ c ≠ 'd' ∧ c ≠ 'k' := by
  have := h c hc
  simpa [CodePoint.continuesOperand, and_assoc] using this

/-- Digits are taken up to where no digit follows. -/
theorem takeDigits_digits_append {digits rest : Text} (hd : ∀ c ∈ digits, c.isDigit = true)
    (hr : ∀ c ∈ rest.head?, c.isDigit = false) : takeDigits (digits ++ rest) = (digits, rest) := by
  rw [takeDigits, List.takeWhile_append_of_pos hd, List.dropWhile_append_of_pos hd]
  cases rest with
  | nil => simp
  | cons c rest =>
    have hc := hr c rfl
    simp [hc]

theorem takeDigits_of_head {t : Text} (hr : ∀ c ∈ t.head?, c.isDigit = false) :
    takeDigits t = ([], t) := by
  have hd : ∀ c ∈ ([] : Text), c.isDigit = true := by simp
  exact takeDigits_digits_append hd hr

/-! ## Dice terms -/

theorem keepSelectors_eq :
    keepSelectors = [[.ofChar 'k', .ofChar 'h'], [.ofChar 'k', .ofChar 'l'], [.ofChar 'k']] := by
  decide

@[simp] theorem dropStart?_nil (t : Text) : t.dropStart? [] = some t := by
  simp [dropStart?]

@[simp] theorem nil_dropStart?_cons (s : CodePoint) (start : Text) :
    dropStart? [] (s :: start) = none := rfl

@[simp] theorem cons_dropStart?_cons (c s : CodePoint) (t start : Text) :
    dropStart? (c :: t) (s :: start) = if s = c then t.dropStart? start else none := by
  by_cases h : s = c <;> simp [dropStart?, h]

theorem takeKeep?_of_head {t : Text} (h : ∀ c ∈ t.head?, c ≠ 'k') : t.takeKeep? = none := by
  cases t with
  | nil => rfl
  | cons c t =>
    have hc : CodePoint.ofChar 'k' ≠ c := (h c rfl).symm
    simp [takeKeep?, keepSelectors_eq, hc]

/-- A selector and its digits are taken as a whole. -/
theorem takeKeep?_selector_append {selector digits rest : Text} (hs : selector ∈ keepSelectors)
    (hd : digits.IsDigits) (hr : ∀ c ∈ rest.head?, c.isDigit = false) :
    takeKeep? (selector ++ (digits ++ rest)) = some (selector, digits, rest) := by
  obtain ⟨hne, hdigits⟩ := hd
  have htake := takeDigits_digits_append hdigits hr
  obtain ⟨d, ds, rfl⟩ := List.exists_cons_of_ne_nil hne
  have hd : d.isDigit = true := hdigits d (by simp)
  have hh : CodePoint.ofChar 'h' ≠ d := by
    rintro rfl
    revert hd
    decide
  have hl : CodePoint.ofChar 'l' ≠ d := by
    rintro rfl
    revert hd
    decide
  have hlh : CodePoint.ofChar 'h' ≠ CodePoint.ofChar 'l' := by decide
  rw [List.cons_append] at htake
  simp only [keepSelectors_eq, List.mem_cons, List.not_mem_nil, or_false] at hs
  rcases hs with rfl | rfl | rfl <;>
    simp [takeKeep?, keepSelectors_eq, hlh, hh, hl, htake]

/-- A proper dice term is taken as a whole, unless digits or a selector follow it. -/
theorem DiceParts.IsProper.takeDice?_append {parts : DiceParts} (h : parts.IsProper) {rest : Text}
    (hr : ∀ c ∈ rest.head?, c.isDigit = false ∧ c ≠ 'k') :
    takeDice? (parts.text ++ rest) = some (parts, rest) := by
  obtain ⟨count, sides, keep⟩ := parts
  obtain ⟨hc, ⟨hne, hs⟩, hk⟩ := h
  have hrest : ∀ c ∈ rest.head?, c.isDigit = false := fun c hc => (hr c hc).1
  have htext (behind : Text) :
      takeDigits (count ++ CodePoint.ofChar 'd' :: behind) = (count, CodePoint.ofChar 'd' :: behind) :=
    takeDigits_digits_append hc (by simp; decide)
  cases keep with
  | none =>
    have hsides : takeDigits (sides ++ rest) = (sides, rest) := takeDigits_digits_append hs hrest
    have hkeep : takeKeep? rest = none := takeKeep?_of_head fun c hc => (hr c hc).2
    simp [takeDice?, DiceParts.text, htext, hsides, hne, hkeep]
  | some keep =>
    obtain ⟨selector, digits⟩ := keep
    obtain ⟨hsel, hdigits⟩ := hk selector digits rfl
    have hkeep := takeKeep?_selector_append hsel hdigits hrest
    have hsides : takeDigits (sides ++ (selector ++ (digits ++ rest))) =
        (sides, selector ++ (digits ++ rest)) := by
      refine takeDigits_digits_append hs ?_
      simp only [keepSelectors_eq, List.mem_cons, List.not_mem_nil, or_false] at hsel
      rcases hsel with rfl | rfl | rfl <;> simp <;> decide
    simp [takeDice?, DiceParts.text, htext, hsides, hne, hkeep]

/-! ## Numbers -/

theorem takeDice?_of_digits {digits rest : Text} (hd : ∀ c ∈ digits, c.isDigit = true)
    (hr : ∀ c ∈ rest.head?, c.isDigit = false ∧ c ≠ 'd') : takeDice? (digits ++ rest) = none := by
  have htake := takeDigits_digits_append hd fun c hc => (hr c hc).1
  simp only [takeDice?, htake]
  cases rest with
  | nil => rfl
  | cons c rest => simp [(hr c rfl).2]

/-- A number with decimals is taken as a whole, unless digits follow it. -/
theorem take_pointed_append {whole decimals rest : Text} (hw : ∀ c ∈ whole, c.isDigit = true)
    (hd : decimals.IsDigits) (hr : ∀ c ∈ rest.head?, c.isDigit = false) :
    takeDice? (whole ++ CodePoint.ofChar '.' :: (decimals ++ rest)) = none ∧
      takeNumber? (whole ++ CodePoint.ofChar '.' :: (decimals ++ rest)) =
        some (whole ++ CodePoint.ofChar '.' :: decimals, rest) := by
  obtain ⟨hne, hd⟩ := hd
  have hpoint : ∀ c ∈ (CodePoint.ofChar '.' :: (decimals ++ rest)).head?,
      c.isDigit = false ∧ c ≠ 'd' := by
    simp
    decide
  refine ⟨takeDice?_of_digits hw hpoint, ?_⟩
  have htake := takeDigits_digits_append hw fun c hc => (hpoint c hc).1
  have hdecimals := takeDigits_digits_append hd hr
  simp [takeNumber?, htake, hdecimals, hne]

/-- A proper number is taken as a whole, and not for the count of a dice term. -/
theorem IsNumber.take_append {number : Text} (h : number.IsNumber) {rest : Text}
    (hr : rest.IsApart) :
    takeDice? (number ++ rest) = none ∧ takeNumber? (number ++ rest) = some (number, rest) := by
  cases h with
  | whole hd =>
    obtain ⟨hne, hd⟩ := hd
    refine ⟨takeDice?_of_digits hd fun c hc => ⟨(hr.ne hc).1, (hr.ne hc).2.2.1⟩, ?_⟩
    have htake := takeDigits_digits_append hd fun c hc => (hr.ne hc).1
    simp only [takeNumber?, htake, if_neg hne]
    cases rest with
    | nil => rfl
    | cons c rest => simp [(hr.ne (c := c) rfl).2.1]
  | pointed hw hd =>
    rw [List.append_assoc, List.cons_append]
    exact take_pointed_append hw hd fun c hc => (hr.ne hc).1

/-! ## Marks and blanks -/

/-- A text that begins with no operand begins with a mark or with blanks. -/
theorem takePiece?_cons_of_isApart {c : CodePoint} {rest : Text} (h : IsApart (c :: rest)) :
    takePiece? (c :: rest) =
      match Lexeme.ofMark? c with
      | some l => some (.lexeme l, rest)
      | none =>
        if c.isBlank then
          some (.blanks (c :: rest.takeWhile CodePoint.isBlank),
            rest.dropWhile CodePoint.isBlank)
        else none := by
  obtain ⟨hd, hp, hdice, _⟩ := h.ne (c := c) rfl
  have htake : takeDigits (c :: rest) = ([], c :: rest) :=
    takeDigits_of_head (by simpa using hd)
  have hdice : takeDice? (c :: rest) = none := by simp [takeDice?, htake, hdice]
  have hnumber : takeNumber? (c :: rest) = none := by simp [takeNumber?, htake, hp]
  cases hm : Lexeme.ofMark? c with
  | none => simp [takePiece?, hdice, hnumber, hm]
  | some l => simp [takePiece?, hdice, hnumber, hm]

theorem ofMark?_of_isBlank {c : CodePoint} (h : c.isBlank = true) : Lexeme.ofMark? c = none := by
  cases hm : Lexeme.ofMark? c with
  | none => rfl
  | some l =>
    exfalso
    have ht := text_ofMark? hm
    obtain text | text | (_ | _) | (_ | _) | _ | _ := l
    · obtain ⟨_, hn, _⟩ := Lexeme.ofMark?_eq_some_iff.mp hm
      cases hn
    · obtain ⟨_, _, hd⟩ := Lexeme.ofMark?_eq_some_iff.mp hm
      cases hd
    all_goals
      cases ht
      revert h
      decide

end Text

/-- A lexeme that is no leaf is a mark, which neither an operand nor blanks take in. -/
theorem Lexeme.text_of_not_isLeaf {l : Lexeme} (h : l.isLeaf = false) :
    ∃ c, l.text = [c] ∧ ofMark? c = some l ∧ c.continuesOperand = false ∧ c.isBlank = false := by
  obtain text | text | (_ | _) | (_ | _) | _ | _ := l
  · cases h
  · cases h
  all_goals exact ⟨_, rfl, by decide⟩

namespace Piece

/-- The texts of which a piece before them takes nothing. -/
def EndsBefore (p : Piece) (rest : Text) : Prop :=
  (p.isLeaf = true → rest.IsApart) ∧ (p.isBlanks = true → ∀ c ∈ rest.head?, c.isBlank = false)

/-- A proper piece is taken as a whole. -/
theorem IsProper.takePiece?_append {p : Piece} (h : p.IsProper) {rest : Text}
    (hr : p.EndsBefore rest) : Text.takePiece? (p.text ++ rest) = some (p, rest) := by
  obtain ⟨hleaf, hblanks⟩ := hr
  cases p with
  | blanks run =>
    obtain ⟨hne, hrun⟩ := h
    obtain ⟨c, run, rfl⟩ := List.exists_cons_of_ne_nil hne
    have hc : c.isBlank = true := hrun c (by simp)
    have hbehind : ∀ c ∈ run, c.isBlank = true := fun c hc => hrun c (by simp [hc])
    have hstop := hblanks rfl
    have hw : rest.takeWhile CodePoint.isBlank = [] ∧ rest.dropWhile CodePoint.isBlank = rest := by
      cases rest with
      | nil => exact ⟨rfl, rfl⟩
      | cons d rest =>
        have hd := hstop d rfl
        simp [hd]
    have hapart : Text.IsApart (c :: (run ++ rest)) := by
      intro c' hc'
      cases hc'
      exact CodePoint.continuesOperand_of_isBlank hc
    rw [Piece.text, List.cons_append, Text.takePiece?_cons_of_isApart hapart,
      Text.ofMark?_of_isBlank hc]
    simp [hc, List.takeWhile_append_of_pos hbehind, List.dropWhile_append_of_pos hbehind, hw.1,
      hw.2]
  | lexeme l =>
    cases hl : l.isLeaf with
    | true =>
      have hapart := hleaf hl
      cases l with
      | number text =>
        obtain ⟨hdice, hnumber⟩ := Text.IsNumber.take_append h hapart
        simp [Piece.text, Lexeme.text, Text.takePiece?, hdice, hnumber]
      | dice text =>
        obtain ⟨parts, hp, rfl⟩ := h
        have hdice := hp.takeDice?_append fun c hc =>
          ⟨(hapart.ne hc).1, (hapart.ne hc).2.2.2⟩
        simp [Piece.text, Lexeme.text, Text.takePiece?, hdice]
      | _ => cases hl
    | false =>
      obtain ⟨c, ht, hm, hc, _⟩ := Lexeme.text_of_not_isLeaf hl
      have hapart : Text.IsApart (c :: rest) := by
        intro c' hc'
        cases hc'
        exact hc
      rw [Piece.text, ht, List.singleton_append, Text.takePiece?_cons_of_isApart hapart, hm]

/-- Neither a number nor a dice term takes anything of a piece that is none. -/
theorem IsProper.isApart_append {q : Piece} (hq : q.IsProper) (hl : q.isLeaf = false)
    (rest : Text) : (q.text ++ rest).IsApart := by
  intro c hc
  cases q with
  | blanks run =>
    obtain ⟨hne, hrun⟩ := hq
    obtain ⟨d, run, rfl⟩ := List.exists_cons_of_ne_nil hne
    cases hc
    exact CodePoint.continuesOperand_of_isBlank (hrun c (by simp))
  | lexeme l =>
    obtain ⟨d, ht, _, hd, _⟩ := Lexeme.text_of_not_isLeaf hl
    rw [Piece.text, ht] at hc
    cases hc
    exact hd

theorem isBlank_of_digits_append {digits rest : Text} {c d : CodePoint}
    (hd : ∀ c ∈ digits, c.isDigit = true) (hc : c.isBlank = false)
    (h : d ∈ (digits ++ c :: rest).head?) : d.isBlank = false := by
  cases digits with
  | nil => cases h; exact hc
  | cons e digits => cases h; exact CodePoint.isBlank_of_isDigit (hd d (by simp))

/-- Blanks take nothing of a piece that is none. -/
theorem IsProper.isBlank_of_mem_head? {q : Piece} (hq : q.IsProper) (hb : q.isBlanks = false)
    {rest : Text} {c : CodePoint} (hc : c ∈ (q.text ++ rest).head?) : c.isBlank = false := by
  obtain l | run := q
  swap
  · cases hb
  cases hl : l.isLeaf with
  | false =>
    obtain ⟨d, ht, _, _, hd⟩ := Lexeme.text_of_not_isLeaf hl
    rw [Piece.text, ht] at hc
    cases hc
    exact hd
  | true =>
    cases l with
    | number text =>
      rcases hq with ⟨hne, hd⟩ | ⟨hw, hd⟩
      · obtain ⟨d, text, rfl⟩ := List.exists_cons_of_ne_nil hne
        cases hc
        exact CodePoint.isBlank_of_isDigit (hd c (by simp))
      · rw [Piece.text, Lexeme.text, List.append_assoc] at hc
        exact isBlank_of_digits_append hw (by decide) hc
    | dice text =>
      obtain ⟨parts, hp, rfl⟩ := hq
      rw [Piece.text, Lexeme.text, Text.DiceParts.text, List.append_assoc, List.append_assoc,
        List.cons_append] at hc
      exact isBlank_of_digits_append hp.count (by decide) hc
    | _ => cases hl

theorem MayPrecede.endsBefore {p q : Piece} (h : p.MayPrecede q) (hq : q.IsProper) (rest : Text) :
    p.EndsBefore (q.text ++ rest) :=
  ⟨fun hp => hq.isApart_append (h.1 hp) rest, fun hp _ hc => hq.isBlank_of_mem_head? (h.2 hp) hc⟩

end Piece

namespace Text

theorem cut_flatMap {ps : List Piece} (hp : ∀ p ∈ ps, p.IsProper)
    (hc : ps.IsChain Piece.MayPrecede) : cut (ps.flatMap Piece.text) = (ps, []) := by
  induction ps with
  | nil => exact cut_of_none (by decide)
  | cons p ps ih =>
    obtain ⟨hhead, htail⟩ := List.isChain_cons.mp hc
    have hends : p.EndsBefore (ps.flatMap Piece.text) := by
      cases ps with
      | nil => exact ⟨fun _ => by simp [IsApart], by simp⟩
      | cons q ps => exact (hhead q rfl).endsBefore (hp q (by simp)) _
    rw [List.flatMap_cons, cut_of_some ((hp p (by simp)).takePiece?_append hends),
      ih (fun q hq => hp q (by simp [hq])) htail]

/-- Pieces that keep apart are the pieces of their text. -/
theorem pieces_flatMap {ps : List Piece} (hp : ∀ p ∈ ps, p.IsProper)
    (hc : ps.IsChain Piece.MayPrecede) : pieces (ps.flatMap Piece.text) = .ok ps := by
  rw [pieces, cut_flatMap hp hc]

end Text

end DiceBot
