import DiceBot.Dice.Response
import DiceBot.Proofs.Token.Cut
import DiceBot.Proofs.Token.Layout

/-!
# The language of tokens

A text is read from the left, and nothing that was taken is ever given back. Nothing is lost by
this: if a text can be cut into proper pieces in any way at all, then it is read up to its end. A
piece may then take in the front of those behind it, but what it leaves can be cut again.

## Main definitions

* `Text.IsCuttable`: the texts that proper pieces can be put together to
* `Text.Continues`: how such a text goes on behind its first code point

## Main results

* `Text.IsCuttable.takePiece?_append`: what the first piece leaves can be cut again
* `Text.exists_pieces_eq_ok_iff`: the texts that are read up to their end
* `Text.isRoll_iff`, `Text.isArithmetic_iff`: the texts that are commands
-/

namespace DiceBot

namespace Text

/-- Some sequence of proper pieces is written as the text. -/
def IsCuttable (t : Text) : Prop :=
  ∃ ps : List Piece, (∀ p ∈ ps, p.IsProper) ∧ ps.flatMap Piece.text = t

theorem IsCuttable.append {p : Piece} {t : Text} (h : t.IsCuttable) (hp : p.IsProper) :
    IsCuttable (p.text ++ t) := by
  obtain ⟨ps, hps, rfl⟩ := h
  refine ⟨p :: ps, ?_, rfl⟩
  rintro q (_ | ⟨_, hq⟩)
  · exact hp
  · exact hps q hq

theorem isCuttable_of_pieces {t : Text} {ps : List Piece} (h : t.pieces = .ok ps) :
    t.IsCuttable :=
  ⟨ps, isProper_of_pieces h, flatMap_of_pieces h⟩

/-! ## The first code point -/

/-- How a text that can be cut goes on behind its first code point. -/
inductive Continues (c : CodePoint) (t : Text) : Prop where
  | free : c.isFree = true → t.IsCuttable → Continues c t
  | point {decimals rest : Text} : c = '.' → t = decimals ++ rest → decimals.IsDigits →
      rest.IsCuttable → Continues c t
  | die {sides rest : Text} : c = 'd' → t = sides ++ rest → sides.IsDigits → rest.IsCuttable →
      Continues c t
  | keeping {sides selector digits rest : Text} : c = 'd' →
      t = sides ++ (selector ++ (digits ++ rest)) → sides.IsDigits → selector ∈ keepSelectors →
      digits.IsDigits → rest.IsCuttable → Continues c t

theorem IsNumber.continues {number rest t : Text} {c : CodePoint} (h : number.IsNumber)
    (hr : rest.IsCuttable) (ht : number ++ rest = c :: t) : Continues c t := by
  cases h with
  | whole hd =>
    obtain ⟨hne, hd⟩ := hd
    obtain ⟨d, digits, rfl⟩ := List.exists_cons_of_ne_nil hne
    obtain ⟨rfl, rfl⟩ := List.cons.inj ht
    refine .free (CodePoint.isFree_of_isDigit (hd _ List.mem_cons_self)) ?_
    by_cases hne' : digits = []
    · subst hne'
      exact hr
    · have hp : (Piece.lexeme (.number digits)).IsProper :=
        .whole ⟨hne', fun c hc => hd c (by simp [hc])⟩
      exact hr.append hp
  | @pointed whole decimals hw hd =>
    cases whole with
    | nil =>
      obtain ⟨rfl, rfl⟩ := List.cons.inj ht
      exact .point rfl rfl hd hr
    | cons d whole =>
      obtain ⟨rfl, rfl⟩ := List.cons.inj ht
      have hp : (Piece.lexeme (.number (whole ++ CodePoint.ofChar '.' :: decimals))).IsProper :=
        .pointed (fun c hc => hw c (by simp [hc])) hd
      exact .free (CodePoint.isFree_of_isDigit (hw _ List.mem_cons_self)) (hr.append hp)

theorem DiceParts.IsProper.continues {parts : DiceParts} {rest t : Text} {c : CodePoint}
    (h : parts.IsProper) (hr : rest.IsCuttable) (ht : parts.text ++ rest = c :: t) :
    Continues c t := by
  obtain ⟨count, sides, keep⟩ := parts
  cases count with
  | cons d count =>
    have hproper : DiceParts.IsProper ⟨count, sides, keep⟩ :=
      ⟨fun c hc => h.count c (by simp [hc]), h.sides, h.keep⟩
    have hp : (Piece.lexeme (.dice (DiceParts.text ⟨count, sides, keep⟩))).IsProper :=
      ⟨_, hproper, rfl⟩
    obtain ⟨rfl, rfl⟩ := List.cons.inj ht
    exact .free (CodePoint.isFree_of_isDigit (h.count _ List.mem_cons_self)) (hr.append hp)
  | nil =>
    obtain ⟨rfl, rfl⟩ := List.cons.inj ht
    cases keep with
    | none =>
      refine .die rfl ?_ h.sides hr
      simp
    | some keep =>
      obtain ⟨hs, hd⟩ := h.keep keep.1 keep.2 rfl
      refine .keeping rfl ?_ h.sides hs hd hr
      simp

/-- A text that can be cut goes on in one of these ways. -/
theorem IsCuttable.continues {c : CodePoint} {t : Text} (h : IsCuttable (c :: t)) :
    Continues c t := by
  obtain ⟨ps, hps, ht⟩ := h
  cases ps with
  | nil => cases ht
  | cons p ps =>
    have hp : p.IsProper := hps p (by simp)
    have hr : IsCuttable (ps.flatMap Piece.text) := ⟨ps, fun q hq => hps q (by simp [hq]), rfl⟩
    rw [List.flatMap_cons] at ht
    cases p with
    | blanks run =>
      obtain ⟨hne, hrun⟩ := hp
      obtain ⟨b, run, rfl⟩ := List.exists_cons_of_ne_nil hne
      obtain ⟨rfl, rfl⟩ := List.cons.inj ht
      refine .free (CodePoint.isFree_of_isBlank (hrun _ List.mem_cons_self)) ?_
      by_cases hne' : run = []
      · subst hne'
        exact hr
      · have hp : (Piece.blanks run).IsProper := ⟨hne', fun c hc => hrun c (by simp [hc])⟩
        exact hr.append hp
    | lexeme l =>
      cases hl : l.isLeaf with
      | false =>
        obtain ⟨d, htext, hm, _⟩ := Lexeme.text_of_not_isLeaf hl
        rw [Piece.text, htext] at ht
        obtain ⟨rfl, rfl⟩ := List.cons.inj ht
        exact .free (by simp [CodePoint.isFree, hm]) hr
      | true =>
        cases l with
        | number text => exact IsNumber.continues hp hr ht
        | dice text =>
          obtain ⟨parts, hparts, rfl⟩ := hp
          exact hparts.continues hr ht
        | _ => cases hl

/-- Any code point but a point and the letter of a die may be left out. -/
theorem IsCuttable.of_cons {c : CodePoint} {t : Text} (h : IsCuttable (c :: t))
    (hp : c ≠ '.') (hd : c ≠ 'd') : t.IsCuttable := by
  cases h.continues with
  | free _ ht => exact ht
  | point hc => exact absurd hc hp
  | die hc => exact absurd hc hd
  | keeping hc => exact absurd hc hd

/-- Code points of a class without these two may be left out together. -/
theorem IsCuttable.dropWhile {drops : CodePoint → Bool} (hp : drops '.' = false)
    (hd : drops 'd' = false) {t : Text} (h : t.IsCuttable) : IsCuttable (t.dropWhile drops) := by
  induction t with
  | nil => exact h
  | cons c t ih =>
    rw [List.dropWhile_cons]
    split
    · rename_i hc
      refine ih (h.of_cons ?_ ?_)
      · rintro rfl
        rw [hp] at hc
        cases hc
      · rintro rfl
        rw [hd] at hc
        cases hc
    · exact h

/-- No selector begins a text that can be cut. -/
theorem IsCuttable.ne_of_mem_head? {t : Text} (h : t.IsCuttable) :
    ∀ c ∈ t.head?, c ≠ CodePoint.ofChar 'k' := by
  rintro c hc rfl
  obtain ⟨t, rfl⟩ := List.head?_eq_some_iff.mp hc
  cases h.continues with
  | free hfree => exact absurd hfree (by decide)
  | point hk => cases hk
  | die hk => cases hk
  | keeping hk => cases hk

/-! ## What a piece leaves -/

/-- Digits take in those that follow them, and leave what can be cut. -/
theorem IsCuttable.exists_digits {digits rest : Text} (hr : rest.IsCuttable)
    (hd : digits.IsDigits) :
    ∃ digits' rest' : Text, digits ++ rest = digits' ++ rest' ∧ digits'.IsDigits ∧
      rest'.IsCuttable ∧ ∀ c ∈ rest'.head?, c.isDigit = false := by
  refine ⟨digits ++ rest.takeWhile CodePoint.isDigit, rest.dropWhile CodePoint.isDigit, ?_,
    ⟨by simp [hd.1], ?_⟩, hr.dropWhile (by decide) (by decide), ?_⟩
  · rw [List.append_assoc, List.takeWhile_append_dropWhile]
  · intro c hc
    rcases List.mem_append.mp hc with hc | hc
    · exact hd.2 c hc
    · exact List.mem_takeWhile_imp hc
  · intro c hc
    have := List.head?_dropWhile_not CodePoint.isDigit rest
    rw [Option.mem_def.mp hc] at this
    simpa using this

/-- A die behind a count is taken, and leaves what can be cut. -/
theorem IsCuttable.takeDice? {count t : Text} (hc : ∀ c ∈ count, c.isDigit = true)
    (h : IsCuttable (CodePoint.ofChar 'd' :: t)) :
    ∃ parts rest, Text.takeDice? (count ++ CodePoint.ofChar 'd' :: t) = some (parts, rest) ∧
      rest.IsCuttable := by
  cases h.continues with
  | free hfree => exact absurd hfree (by decide)
  | point hd => cases hd
  | die _ ht hs hr =>
    obtain ⟨sides, rest, he, hs, hr, hhead⟩ := hr.exists_digits hs
    have hp : DiceParts.IsProper ⟨count, sides, none⟩ := ⟨hc, hs, by simp⟩
    have htake := hp.takeDice?_append fun c hc => ⟨hhead c hc, hr.ne_of_mem_head? c hc⟩
    exact ⟨_, rest, by simpa [DiceParts.text, ht, he] using htake, hr⟩
  | @keeping sides selector _ _ _ ht hs hsel hd hr =>
    obtain ⟨digits, rest, he, hd, hr, hhead⟩ := hr.exists_digits hd
    have hp : DiceParts.IsProper ⟨count, sides, some (selector, digits)⟩ :=
      ⟨hc, hs, by simp [hsel, hd]⟩
    have htake := hp.takeDice?_append fun c hc => ⟨hhead c hc, hr.ne_of_mem_head? c hc⟩
    exact ⟨_, rest, by simpa [DiceParts.text, ht, he] using htake, hr⟩

/-- A point behind digits is taken, and leaves what can be cut. -/
theorem IsCuttable.takeNumber? {whole t : Text} (hw : ∀ c ∈ whole, c.isDigit = true)
    (h : IsCuttable (CodePoint.ofChar '.' :: t)) :
    ∃ number rest, Text.takeDice? (whole ++ CodePoint.ofChar '.' :: t) = none ∧
      Text.takeNumber? (whole ++ CodePoint.ofChar '.' :: t) = some (number, rest) ∧
        rest.IsCuttable := by
  cases h.continues with
  | free hfree => exact absurd hfree (by decide)
  | die hd => cases hd
  | keeping hd => cases hd
  | point _ ht hd hr =>
    obtain ⟨decimals, rest, he, hd, hr, hhead⟩ := hr.exists_digits hd
    rw [ht, he]
    obtain ⟨hdice, hnumber⟩ := take_pointed_append hw hd hhead
    exact ⟨_, rest, hdice, hnumber, hr⟩

theorem IsCuttable.isApart {c : CodePoint} {t : Text} (h : IsCuttable (c :: t))
    (hc : c.isDigit = false) (hp : c ≠ '.') (hd : c ≠ 'd') : IsApart (c :: t) := by
  intro c' hc'
  cases hc'
  have hk : c ≠ 'k' := h.ne_of_mem_head? c rfl
  simp [CodePoint.continuesOperand, hc, hp, hd, hk]

/-- What the first piece leaves of a text that can be cut can be cut again. -/
theorem IsCuttable.takePiece?_append {digits behind : Text} (h : behind.IsCuttable)
    (hd : ∀ c ∈ digits, c.isDigit = true) (hb : ∀ c ∈ behind.head?, c.isDigit = false)
    (hne : digits ++ behind ≠ []) :
    ∃ p rest, Text.takePiece? (digits ++ behind) = some (p, rest) ∧ rest.IsCuttable := by
  have hnumber (hdne : digits ≠ []) (hapart : behind.IsApart) :
      ∃ p rest, Text.takePiece? (digits ++ behind) = some (p, rest) ∧ rest.IsCuttable := by
    obtain ⟨hdice, hnumber⟩ := (IsNumber.whole ⟨hdne, hd⟩).take_append hapart
    exact ⟨.lexeme (.number digits), behind, by simp only [Text.takePiece?, hdice, hnumber], h⟩
  cases behind with
  | nil => exact hnumber (by simpa using hne) (by simp [IsApart])
  | cons c t =>
    by_cases hdie : c = 'd'
    · subst hdie
      obtain ⟨parts, rest, hdice, hr⟩ := h.takeDice? hd
      exact ⟨.lexeme (.dice parts.text), rest, by simp only [Text.takePiece?, hdice], hr⟩
    by_cases hpoint : c = '.'
    · subst hpoint
      obtain ⟨number, rest, hdice, hnumber, hr⟩ := h.takeNumber? hd
      exact ⟨.lexeme (.number number), rest, by simp only [Text.takePiece?, hdice, hnumber], hr⟩
    have hc : c.isDigit = false := hb c rfl
    have hapart := h.isApart hc hpoint hdie
    by_cases hdne : digits = []
    swap
    · exact hnumber hdne hapart
    subst hdne
    have ht : IsCuttable t := h.of_cons hpoint hdie
    rw [List.nil_append, takePiece?_cons_of_isApart hapart]
    cases hm : Lexeme.ofMark? c with
    | some l => exact ⟨_, t, rfl, ht⟩
    | none =>
      have hblank : c.isBlank = true := by
        cases h.continues with
        | free hfree => simpa [CodePoint.isFree, hc, hm] using hfree
        | point he => exact absurd he hpoint
        | die he => exact absurd he hdie
        | keeping he => exact absurd he hdie
      exact ⟨_, _, if_pos hblank, ht.dropWhile (by decide) (by decide)⟩

/-- A text that can be cut in any way is read up to its end. -/
theorem IsCuttable.cut_snd {t : Text} (h : t.IsCuttable) : t.cut.2 = [] := by
  induction hn : t.length using Nat.strong_induction_on generalizing t with
  | _ n ih =>
    by_cases hne : t = []
    · subst hne
      rw [cut_of_none (by decide)]
    · have hdigits : ∀ c ∈ t.takeWhile CodePoint.isDigit, c.isDigit = true :=
        fun c hc => List.mem_takeWhile_imp hc
      have hbehind : IsCuttable (t.dropWhile CodePoint.isDigit) :=
        h.dropWhile (by decide) (by decide)
      have hhead := List.head?_dropWhile_not CodePoint.isDigit t
      obtain ⟨p, rest, htake, hr⟩ := hbehind.takePiece?_append hdigits
        (fun c hc => by simpa [Option.mem_def.mp hc] using hhead)
        (by rwa [List.takeWhile_append_dropWhile])
      rw [List.takeWhile_append_dropWhile] at htake
      rw [cut_of_some htake]
      exact ih rest.length (hn ▸ takePiece?_length htake) hr rfl

/-- The texts that are read up to their end are those that can be cut in some way. -/
theorem exists_pieces_eq_ok_iff {t : Text} : (∃ ps, t.pieces = .ok ps) ↔ t.IsCuttable := by
  constructor
  · rintro ⟨ps, hps⟩
    exact isCuttable_of_pieces hps
  · intro h
    exact ⟨t.cut.1, pieces_eq_ok_iff.mpr (Prod.ext rfl h.cut_snd)⟩

/-! ## Commands -/

theorem exists_tokens_eq_ok_iff {t : Text} : (∃ tokens, t.tokens = .ok tokens) ↔ t.IsCuttable := by
  rw [← exists_pieces_eq_ok_iff]
  cases h : t.pieces with
  | ok ps => simp [tokens, h, Except.map]
  | error cause => simp [tokens, h, Except.map]

/-- The letter of a die stands in dice terms only. -/
theorem die_mem_iff {ps : List Piece} (hp : ∀ p ∈ ps, p.IsProper) (place : Nat) :
    CodePoint.ofChar 'd' ∈ ps.flatMap Piece.text ↔
      ∃ u ∈ placed place ps, u.lexeme.isDice = true := by
  constructor
  · intro hd
    obtain ⟨p, hmem, hd⟩ := List.mem_flatMap.mp hd
    rcases (hp p hmem).mem_text hd with h | h | ⟨⟨text, rfl⟩, _⟩
    · exact absurd h (by decide)
    · cases h
    · obtain ⟨u, hu, he⟩ := exists_mem_placed hmem place
      exact ⟨u, hu, by rw [he]; rfl⟩
  · rintro ⟨u, hu, hdice⟩
    have hmem := mem_of_mem_placed hu
    have hproper := hp _ hmem
    refine List.mem_flatMap.mpr ⟨_, hmem, ?_⟩
    cases hl : u.lexeme with
    | dice text =>
      rw [hl] at hproper
      obtain ⟨parts, _, rfl⟩ := hproper
      simp [Piece.text, Lexeme.text, DiceParts.text]
    | _ => rw [hl] at hdice; cases hdice

/-- Tokens begin with what is not blank. -/
theorem exists_not_isBlank_iff {ps : List Piece} (hp : ∀ p ∈ ps, p.IsProper) (place : Nat) :
    (∃ c ∈ ps.flatMap Piece.text, c.isBlank = false) ↔ placed place ps ≠ [] := by
  constructor
  · rintro ⟨c, hc, hblank⟩
    obtain ⟨p, hmem, hc⟩ := List.mem_flatMap.mp hc
    cases p with
    | lexeme l =>
      obtain ⟨u, hu, _⟩ := exists_mem_placed hmem place
      exact List.ne_nil_of_mem hu
    | blanks run =>
      rw [(hp _ hmem).2 c hc] at hblank
      cases hblank
  · intro hne
    obtain ⟨u, hu⟩ := List.exists_mem_of_ne_nil _ hne
    have hmem := mem_of_mem_placed hu
    have hproper := hp _ hmem
    obtain ⟨c, text, htext⟩ := List.exists_cons_of_ne_nil hproper.text_ne_nil
    have hhead : c ∈ ((Piece.lexeme u.lexeme).text ++ []).head? := by
      rw [htext]
      rfl
    have hc : c.isBlank = false := hproper.isBlank_of_mem_head? rfl hhead
    exact ⟨c, List.mem_flatMap.mpr ⟨_, hmem, by rw [htext]; simp⟩, hc⟩

/-- The texts that can be cut and hold the letter of a die are rolls. -/
theorem isRoll_iff {t : Text} : t.isRoll = true ↔ t.IsCuttable ∧ CodePoint.ofChar 'd' ∈ t := by
  rw [← exists_pieces_eq_ok_iff]
  cases h : t.pieces with
  | error cause => simp [isRoll, tokens, h, Except.map]
  | ok ps =>
    have hdie := die_mem_iff (isProper_of_pieces h) 0
    rw [flatMap_of_pieces h] at hdie
    simp [isRoll, tokens, h, Except.map, hdie]

/-- The texts that can be cut, hold no such letter and are not blank are arithmetic. -/
theorem isArithmetic_iff {t : Text} :
    t.isArithmetic = true ↔
      t.IsCuttable ∧ CodePoint.ofChar 'd' ∉ t ∧ ∃ c ∈ t, c.isBlank = false := by
  rw [← exists_pieces_eq_ok_iff]
  cases h : t.pieces with
  | error cause => simp [isArithmetic, tokens, h, Except.map]
  | ok ps =>
    have hdie := die_mem_iff (isProper_of_pieces h) 0
    have hblank := exists_not_isBlank_iff (isProper_of_pieces h) 0
    rw [flatMap_of_pieces h] at hdie hblank
    rw [hdie, hblank]
    simp [isArithmetic, tokens, h, Except.map, and_comm]

/-- **A text is read exactly if it can be cut.** Its tokens then stand in it one behind another,
with nothing but blanks around them, and its letters tell whether it is a command. -/
theorem tokens_iff_isCuttable (t : Text) :
    ((∃ tokens, t.tokens = .ok tokens) ↔ t.IsCuttable) ∧
      (∀ tokens, t.tokens = .ok tokens → t.IsLaidOut tokens) ∧
      (t.isRoll = true ↔ t.IsCuttable ∧ CodePoint.ofChar 'd' ∈ t) ∧
      (t.isArithmeticCommand = true ↔ ∃ e, t = CodePoint.ofChar '!' :: e ∧
        IsCuttable e ∧ CodePoint.ofChar 'd' ∉ e ∧ ∃ c ∈ e, c.isBlank = false) := by
  refine ⟨exists_tokens_eq_ok_iff, fun tokens h => ?_, isRoll_iff, ?_⟩
  · cases hps : t.pieces with
    | error cause => simp [Text.tokens, hps, Except.map] at h
    | ok ps =>
      rw [Text.tokens, hps] at h
      cases h
      exact isLaidOut_of_pieces hps
  · cases t with
    | nil => simp [isArithmeticCommand, command?, ofString]
    | cons c e =>
      by_cases hc : CodePoint.ofChar '!' = c
      · subst hc
        simp [isArithmeticCommand, command?, ofString, isArithmetic_iff]
      · simp [isArithmeticCommand, command?, ofString, hc, Ne.symm hc]

end Text

end DiceBot
