import DiceBot.Proofs.Token.Proper

/-!
# Tokens in their text

The tokens of a text stand where their lexemes are written, one behind another, and what stands
around them is blank.

## Main definitions

* `Text.IsLaidOut`: tokens that stand in a text, with nothing but blanks around them

## Main results

* `exists_append_of_placed`: the first tokens are those of the first pieces
* `isChain_mayPrecede`: pieces without two leaves in a row keep apart
* `pairwise_placed`, `pairwise_position_placed`: tokens do not overlap, and stand in order
* `Text.isLaidOut_of_pieces`: the tokens of a text are laid out in it
-/

namespace DiceBot

/-! ## Tokens of pieces -/

theorem placed_append (place : Nat) (ps qs : List Piece) :
    placed place (ps ++ qs) =
      placed place ps ++ placed (place + (ps.flatMap Piece.text).length) qs := by
  induction ps generalizing place with
  | nil => rfl
  | cons p ps ih =>
    cases p with
    | lexeme l =>
      rw [List.cons_append, placed, ih, List.flatMap_cons, List.length_append, ← Nat.add_assoc]
      rfl
    | blanks run =>
      rw [List.cons_append, placed, ih, List.flatMap_cons, List.length_append, ← Nat.add_assoc]
      rfl

/-- The first tokens are those of the first pieces. -/
theorem exists_append_of_placed {ps : List Piece} {place : Nat} {front rest : List Token}
    (h : placed place ps = front ++ rest) :
    ∃ qs qs', ps = qs ++ qs' ∧ placed place qs = front := by
  induction ps generalizing place front with
  | nil =>
    obtain ⟨rfl, -⟩ := List.append_eq_nil_iff.mp h.symm
    exact ⟨[], [], rfl, rfl⟩
  | cons p ps ih =>
    cases front with
    | nil => exact ⟨[], p :: ps, rfl, rfl⟩
    | cons t front =>
      cases p with
      | lexeme l =>
        obtain ⟨rfl, hrest⟩ := List.cons_eq_cons.mp h
        obtain ⟨qs, qs', rfl, rfl⟩ := ih hrest
        exact ⟨.lexeme l :: qs, qs', rfl, rfl⟩
      | blanks run =>
        obtain ⟨qs, qs', rfl, hqs⟩ := ih h
        exact ⟨.blanks run :: qs, qs', rfl, hqs⟩

theorem map_lexeme_placed (place : Nat) (ls : List Lexeme) :
    (placed place (ls.map .lexeme)).map Token.lexeme = ls := by
  induction ls generalizing place with
  | nil => rfl
  | cons l ls ih => exact congrArg (l :: ·) (ih _)

/-- The pieces of an expression keep apart: between two operands a mark is read, and two runs of
blanks would have been one. -/
theorem isChain_mayPrecede {ps : List Piece} {place : Nat}
    (hb : ps.IsChain fun p q => p.isBlanks = true → q.isBlanks = false)
    (hl : (placed place ps).IsChain fun t u => t.lexeme.isLeaf = true → u.lexeme.isLeaf = false) :
    ps.IsChain Piece.MayPrecede := by
  induction ps generalizing place with
  | nil => exact .nil
  | cons p ps ih =>
    obtain ⟨hhead, hb⟩ := List.isChain_cons.mp hb
    have hrest : ∃ next, (placed next ps).IsChain fun t u =>
        t.lexeme.isLeaf = true → u.lexeme.isLeaf = false := by
      cases p with
      | lexeme l => exact ⟨_, hl.tail⟩
      | blanks run => exact ⟨_, hl⟩
    obtain ⟨next, hrest⟩ := hrest
    refine List.isChain_cons.mpr ⟨fun q hq => ⟨fun hleaf => ?_, hhead q hq⟩, ih hb hrest⟩
    obtain ⟨qs, rfl⟩ := List.head?_eq_some_iff.mp hq
    cases q with
    | blanks run => rfl
    | lexeme m =>
      cases p with
      | blanks run => cases hleaf
      | lexeme l => exact (List.isChain_cons.mp hl).1 _ rfl hleaf

/-! ## Positions -/

theorem le_position_of_mem_placed {ps : List Piece} {place : Nat} {t : Token}
    (h : t ∈ placed place ps) : place ≤ t.position := by
  induction ps generalizing place with
  | nil => cases h
  | cons p ps ih =>
    cases p with
    | lexeme l =>
      rcases List.mem_cons.mp h with rfl | h
      · exact le_rfl
      · exact (Nat.le_add_right ..).trans (ih h)
    | blanks run => exact (Nat.le_add_right ..).trans (ih h)

/-- Tokens do not overlap. -/
theorem pairwise_placed (place : Nat) (ps : List Piece) :
    (placed place ps).Pairwise fun t u => t.stop ≤ u.position := by
  induction ps generalizing place with
  | nil => exact .nil
  | cons p ps ih =>
    cases p with
    | lexeme l => exact .cons (fun u hu => le_position_of_mem_placed hu) (ih _)
    | blanks run => exact ih _

/-- No piece is empty. -/
theorem Piece.IsProper.text_ne_nil {p : Piece} (h : p.IsProper) : p.text ≠ [] := by
  cases p with
  | blanks run => exact h.1
  | lexeme l =>
    cases l with
    | number text =>
      cases h with
      | whole hd => exact hd.1
      | pointed => simp [Piece.text, Lexeme.text]
    | dice text =>
      obtain ⟨parts, _, rfl⟩ := h
      simp [Piece.text, Lexeme.text, Text.DiceParts.text]
    | _ => simp [Piece.text, Lexeme.text]

theorem mem_of_mem_placed {ps : List Piece} {place : Nat} {t : Token} (h : t ∈ placed place ps) :
    .lexeme t.lexeme ∈ ps := by
  induction ps generalizing place with
  | nil => cases h
  | cons p ps ih =>
    cases p with
    | lexeme l =>
      rcases List.mem_cons.mp h with rfl | h
      · exact List.mem_cons_self
      · exact List.mem_cons_of_mem _ (ih h)
    | blanks run => exact List.mem_cons_of_mem _ (ih h)

theorem exists_mem_placed {ps : List Piece} {l : Lexeme} (h : .lexeme l ∈ ps) (place : Nat) :
    ∃ u ∈ placed place ps, u.lexeme = l := by
  induction ps generalizing place with
  | nil => cases h
  | cons p ps ih =>
    rcases List.mem_cons.mp h with rfl | hl
    · exact ⟨⟨l, place⟩, List.mem_cons_self, rfl⟩
    · cases p with
      | lexeme m =>
        obtain ⟨u, hu, he⟩ := ih hl (place + m.text.length)
        exact ⟨u, List.mem_cons_of_mem _ hu, he⟩
      | blanks run => exact ih hl _

/-- The tokens of proper pieces stand further and further to the right. -/
theorem pairwise_position_placed {ps : List Piece} (hp : ∀ p ∈ ps, p.IsProper) (place : Nat) :
    (placed place ps).Pairwise fun u v => u.position < v.position := by
  refine (pairwise_placed place ps).imp_of_mem fun {u v} hu _ hle => ?_
  have hpos := List.length_pos_iff.mpr (hp _ (mem_of_mem_placed hu)).text_ne_nil
  exact (Nat.lt_add_of_pos_right hpos).trans_le hle

/-- A token stands in the text where its position says. -/
theorem exists_around_of_mem_placed {ps : List Piece} (front : Text) {u : Token}
    (h : u ∈ placed front.length ps) :
    ∃ before behind : Text, front ++ ps.flatMap Piece.text = before ++ (u.text ++ behind) ∧
      before.length = u.position := by
  induction ps generalizing front with
  | nil => cases h
  | cons p ps ih =>
    have hrest (h : u ∈ placed (front ++ p.text).length ps) :
        ∃ before behind : Text,
          front ++ (p :: ps).flatMap Piece.text = before ++ (u.text ++ behind) ∧
            before.length = u.position := by
      obtain ⟨before, behind, he, hlength⟩ := ih _ h
      refine ⟨before, behind, ?_, hlength⟩
      rw [← he, List.flatMap_cons, List.append_assoc]
    cases p with
    | lexeme l =>
      rcases List.mem_cons.mp h with rfl | h
      · exact ⟨front, ps.flatMap Piece.text, rfl, rfl⟩
      · exact hrest (by rwa [List.length_append])
    | blanks run => exact hrest (by rwa [List.length_append])

/-- What stands in no token is blank. -/
theorem isBlank_of_outside {ps : List Piece} (hp : ∀ p ∈ ps, p.IsProper) (place : Nat) {i : Nat}
    {c : CodePoint} (hc : (ps.flatMap Piece.text)[i]? = some c)
    (hout : ∀ u ∈ placed place ps, place + i < u.position ∨ u.stop ≤ place + i) :
    c.isBlank = true := by
  induction ps generalizing place i with
  | nil => cases hc
  | cons p ps ih =>
    rw [List.flatMap_cons, List.getElem?_append] at hc
    have hps : ∀ p ∈ ps, p.IsProper := fun q hq => hp q (by simp [hq])
    have hrest (hle : p.text.length ≤ i)
        (hmem : ∀ u ∈ placed (place + p.text.length) ps,
          place + i < u.position ∨ u.stop ≤ place + i) : c.isBlank = true := by
      rw [if_neg (by omega)] at hc
      refine ih hps (place + p.text.length) hc fun u hu => ?_
      have := hmem u hu
      omega
    cases p with
    | lexeme l =>
      by_cases hlt : i < l.text.length
      · have := hout ⟨l, place⟩ (by simp [placed])
        simp only [Token.stop, Token.text] at this
        omega
      · exact hrest (not_lt.mp hlt) fun u hu => hout u (by simp [placed]; exact .inr hu)
    | blanks run =>
      by_cases hlt : i < (Piece.blanks run).text.length
      · rw [if_pos hlt] at hc
        have hrun : (Piece.blanks run).IsProper := hp _ (by simp)
        exact hrun.2 c (List.mem_of_getElem? hc)
      · exact hrest (not_lt.mp hlt) hout

/-- Tokens that stand in a text one behind another, each where it is written, with nothing but
blanks around them. -/
structure Text.IsLaidOut (t : Text) (tokens : List Token) : Prop where
  proper : ∀ u ∈ tokens, (Piece.lexeme u.lexeme).IsProper
  ascending : tokens.Pairwise fun u v => u.position < v.position
  apart : tokens.Pairwise fun u v => u.stop ≤ v.position
  slice : ∀ u ∈ tokens, (t.take u.stop).drop u.position = u.text
  blank : ∀ i c, t[i]? = some c → (∀ u ∈ tokens, i < u.position ∨ u.stop ≤ i) → c.isBlank = true

theorem Text.IsLaidOut.drop_position {t : Text} {tokens : List Token} {u : Token}
    (h : t.IsLaidOut tokens) (hu : u ∈ tokens) : t.drop u.position = u.text ++ t.drop u.stop := by
  have hslice := h.slice u hu
  rw [Token.stop, List.drop_take, Nat.add_sub_cancel_left] at hslice
  rw [← List.take_append_drop u.text.length (t.drop u.position), hslice, List.drop_drop, Token.stop]

/-- The tokens of a text are laid out in it. -/
theorem Text.isLaidOut_of_pieces {t : Text} {ps : List Piece} (h : t.pieces = .ok ps) :
    t.IsLaidOut (placed 0 ps) := by
  have hproper := isProper_of_pieces h
  have ht := flatMap_of_pieces h
  refine ⟨fun u hu => hproper _ (mem_of_mem_placed hu), pairwise_position_placed hproper 0,
    pairwise_placed 0 ps, fun u hu => ?_, fun i c hc hout => ?_⟩
  · obtain ⟨before, behind, he, hlength⟩ := exists_around_of_mem_placed [] hu
    rw [← ht, ← List.nil_append (ps.flatMap _), he, Token.stop, ← hlength, ← List.append_assoc,
      ← List.length_append, List.take_left, List.drop_left]
  · rw [← ht] at hc
    exact isBlank_of_outside hproper 0 hc (by simpa using hout)

end DiceBot
