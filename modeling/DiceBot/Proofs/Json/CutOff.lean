import DiceBot.Proofs.Json.RoundTrip

/-!
# Documents that were cut off

A document that is written in chunks and breaks off before one of them is no document: a bracket or
a brace that was opened is never closed, so that the reader comes to the end of the text where it
still expects something.

## Main definitions

* `Json.BreaksOff`: some chunks were written, and then one was not
* `Json.Unreadable`: no value stands at the beginning of a text

## Main results

* `Json.unreadable_of_breaksOff`: a value of which some chunks are missing cannot be read
* `Json.read_of_breaksOff`: a document of which some chunks are missing is malformed
-/

namespace DiceBot

namespace Json

variable {front chunks chunks' : List (Except Fault Text)} {chunk : Except Fault Text}

/-- The writing of some chunks breaks off: those in front could be made, and one is not written. -/
structure BreaksOff (front chunks : List (Except Fault Text)) : Prop where
  missing : ∃ chunk back, chunks = front ++ chunk :: back
  isMade : ∀ chunk ∈ front, IsMade chunk

theorem BreaksOff.cons (h : BreaksOff front (chunk :: chunks)) :
    front = [] ∨ ∃ rest, front = chunk :: rest ∧ BreaksOff rest chunks := by
  obtain ⟨⟨missing, back, heq⟩, hmade⟩ := h
  rcases List.cons_eq_append_iff.mp heq with ⟨rfl, -⟩ | ⟨rest, rfl, hrest⟩
  · exact .inl rfl
  · exact .inr ⟨rest, rfl, ⟨missing, back, hrest⟩, (List.forall_mem_cons.mp hmade).2⟩

/-- The writing breaks off within the chunks in front, or behind all of them. -/
theorem BreaksOff.append (h : BreaksOff front (chunks ++ chunks')) :
    BreaksOff front chunks ∨
      ∃ rest, front = chunks ++ rest ∧ (∀ chunk ∈ chunks, IsMade chunk) ∧
        BreaksOff rest chunks' := by
  obtain ⟨⟨missing, back, heq⟩, hmade⟩ := h
  rcases List.append_eq_append_iff.mp heq with ⟨rest, rfl, hrest⟩ | ⟨rest, rfl, hrest⟩
  · obtain ⟨hchunks, hmade⟩ := List.forall_mem_append.mp hmade
    exact .inr ⟨rest, rfl, hchunks, ⟨missing, back, hrest⟩, hmade⟩
  · cases rest with
    | nil =>
      rw [List.append_nil]
      exact .inr ⟨[], (List.append_nil front).symm, hmade, ⟨missing, back, hrest.symm⟩, nofun⟩
    | cons next rest => exact .inl ⟨⟨next, rest, rfl⟩, hmade⟩

theorem not_breaksOff_nil : ¬ BreaksOff front [] := by
  rintro ⟨⟨missing, back, heq⟩, -⟩
  simp at heq

theorem BreaksOff.singleton (h : BreaksOff front [chunk]) : front = [] := by
  rcases h.cons with hnil | ⟨rest, -, hrest⟩
  · exact hnil
  · exact absurd hrest not_breaksOff_nil

/-! ## Texts without a value -/

/-- No value stands at the beginning of a text, with as much fuel as the text needs. -/
def Unreadable (t : Text) : Prop :=
  ∀ fuel, 2 * t.length ≤ fuel → readValue fuel t = .error .malformed

theorem flush_nil : Flush [] :=
  ⟨rfl, nofun, nofun⟩

theorem unreadable_nil : Unreadable [] := by
  rintro (_ | fuel) -
  · rfl
  · rfl

section Steps

variable {fuel depth : Nat} {t behind rest : Text}

/-! ### Arrays -/

theorem unreadable_array (hflush : Flush t)
    (h : ∀ fuel, 2 * t.length + 1 ≤ fuel → readItems fuel t = .error .malformed) :
    Unreadable (CodePoint.ofChar '[' :: (newline depth ++ t)) := by
  intro fuel hfuel
  rw [List.length_cons, List.length_append] at hfuel
  obtain ⟨fuel, rfl⟩ : ∃ more, fuel = more + 1 := ⟨fuel - 1, by omega⟩
  rw [readValue_bracket hflush, h fuel (by omega)]
  rfl

theorem readItems_of_first (h : readValue fuel t = .error .malformed) :
    readItems (fuel + 1) t = .error .malformed := by
  rw [readItems, h]
  rfl

/-- An item without a comma or a bracket behind it. -/
theorem readItems_of_end {item : Json} (h : readValue fuel t = .ok (item, rest))
    (hrest : skipSpace rest = []) : readItems (fuel + 1) t = .error .malformed := by
  rw [readItems]
  refine bind_eq_error_iff.mpr (.inr ⟨_, h, ?_⟩)
  dsimp only
  rw [hrest]
  rfl

/-! ### Objects -/

theorem unreadable_object (hflush : Flush t)
    (h : ∀ fuel, 2 * t.length + 1 ≤ fuel → readMembers fuel [] t = .error .malformed) :
    Unreadable (CodePoint.ofChar '\x7b' :: (newline depth ++ t)) := by
  intro fuel hfuel
  rw [List.length_cons, List.length_append] at hfuel
  obtain ⟨fuel, rfl⟩ : ∃ more, fuel = more + 1 := ⟨fuel - 1, by omega⟩
  rw [readValue_brace hflush, h fuel (by omega)]
  rfl

theorem readMembers_nil (fuel : Nat) (before : List (Text × Json)) :
    readMembers fuel before [] = .error .malformed := by
  cases fuel <;> rfl

theorem unreadable_brace : Unreadable [CodePoint.ofChar '\x7b'] := by
  intro fuel hfuel
  rw [List.length_singleton] at hfuel
  obtain ⟨fuel, rfl⟩ : ∃ more, fuel = more + 1 := ⟨fuel - 1, by omega⟩
  rw [readValue, if_neg (by decide), if_neg (by decide), if_pos rfl]
  dsimp only
  rw [flush_nil.skipSpace, if_neg flush_nil.head?_ne.2, readMembers_nil]
  rfl

section Members

variable {before : List (Text × Json)} {name value : Text}

/-- A name without a colon behind it. -/
theorem readMembers_of_name (hname : readString t = .ok (name, [])) :
    readMembers (fuel + 1) before (CodePoint.ofChar '"' :: t) = .error .malformed := by
  rw [readMembers, if_pos rfl, hname]
  rfl

theorem readMembers_of_value
    (hname : readString t = .ok (name, CodePoint.ofChar ':' :: CodePoint.ofChar ' ' :: value))
    (hflush : Flush value) (h : readValue fuel value = .error .malformed) :
    readMembers (fuel + 1) before (CodePoint.ofChar '"' :: t) = .error .malformed := by
  rw [readMembers_eq hname hflush, h]
  rfl

/-- A member without a comma or a brace behind it. -/
theorem readMembers_of_end {j : Json}
    (hname : readString t = .ok (name, CodePoint.ofChar ':' :: CodePoint.ofChar ' ' :: value))
    (hflush : Flush value) (h : readValue fuel value = .ok (j, rest))
    (hrest : skipSpace rest = []) :
    readMembers (fuel + 1) before (CodePoint.ofChar '"' :: t) = .error .malformed := by
  rw [readMembers_eq hname hflush, h]
  exact readBehind_of_blank hrest

end Members

end Steps

/-! ## Chunks that are missing -/

/-- The first member that is written begins with a quote. -/
theorem BreaksOff.flush_members {depth : Nat} {m : Text × Json} {members : List (Text × Json)}
    (h : BreaksOff front (memberChunks depth (m :: members) ++ chunks)) :
    Flush (front.flatMap chunkText) := by
  obtain ⟨name, j⟩ := m
  simp only [memberChunks, List.cons_append] at h
  rcases h.cons with rfl | ⟨rest, rfl, -⟩
  · exact flush_nil
  · rw [List.flatMap_cons, chunkText_ok, string_eq]
    exact Opens.flush ⟨'"', _, rfl, by decide⟩

mutual

/-- A value of which some chunks are missing cannot be read. -/
theorem unreadable_of_breaksOff (depth : Nat) (lead : Text) (j : Json)
    (front : List (Except Fault Text)) (h : BreaksOff front (Json.chunks depth lead j)) :
    front = [] ∨ ∃ t, front.flatMap chunkText = lead ++ t ∧ Flush t ∧ Unreadable t := by
  cases j with
  | null | bool _ | integer _ | float _ | text _ => exact .inl h.singleton
  | array items =>
    cases items with
    | nil => exact .inl h.singleton
    | cons j rest =>
      simp only [Json.chunks, List.cons_append, List.append_assoc] at h
      rcases h.cons with hnil | ⟨inside, rfl, hinside⟩
      · exact .inl hnil
      right
      rw [List.flatMap_cons, chunkText_ok]
      rcases readItems_of_breaksOff (depth + 1) depth _ j rest inside hinside with
        rfl | ⟨t, ht, hflush, hitems⟩
      · exact ⟨[], rfl, flush_nil, unreadable_nil⟩
      · refine ⟨CodePoint.ofChar '[' :: (newline (depth + 1) ++ t), ?_,
          Opens.flush ⟨'[', _, rfl, by decide⟩, unreadable_array hflush hitems⟩
        rw [ht]
        simp [Text.ofString]
  | object members =>
    cases members with
    | nil => exact .inl h.singleton
    | cons m rest =>
      cases m with | mk name j
      simp only [Json.chunks, List.cons_append] at h
      rcases h.cons with hnil | ⟨inside, rfl, hinside⟩
      · exact .inl hnil
      right
      rw [List.flatMap_cons, chunkText_ok]
      rcases hinside.cons with rfl | ⟨inside, rfl, hline⟩
      · exact ⟨[], rfl, flush_nil, unreadable_nil⟩
      rcases hline.cons with rfl | ⟨inside, rfl, hmembers⟩
      · exact ⟨_, rfl, Opens.flush ⟨'\x7b', [], rfl, by decide⟩, unreadable_brace⟩
      refine ⟨CodePoint.ofChar '\x7b' :: (newline (depth + 1) ++ inside.flatMap chunkText), rfl,
        Opens.flush ⟨'\x7b', _, rfl, by decide⟩,
        unreadable_object hmembers.flush_members fun fuel hfuel => ?_⟩
      exact readMembers_of_breaksOff (depth + 1) depth fuel [] name j rest inside hmembers hfuel
termination_by sizeOf j

/-- Items, the first one behind `lead`, of which some chunks are missing cannot be read. -/
theorem readItems_of_breaksOff (depth depth' : Nat) (lead : Text) (j : Json) (items : List Json)
    (front : List (Except Fault Text)) (h : BreaksOff front (Json.chunks depth lead j ++
      (itemChunks depth items ++ [.ok (newline depth'), .ok "]"]))) :
    front = [] ∨ ∃ t, front.flatMap chunkText = lead ++ t ∧ Flush t ∧
      ∀ fuel, 2 * t.length + 1 ≤ fuel → readItems fuel t = .error .malformed := by
  rcases h.append with hfirst | ⟨behind, rfl, hmade, hbehind⟩
  · rcases unreadable_of_breaksOff depth lead j front hfirst with hnil | ⟨t, ht, hflush, hread⟩
    · exact .inl hnil
    · refine .inr ⟨t, ht, hflush, fun fuel hfuel => ?_⟩
      obtain ⟨fuel, rfl⟩ : ∃ more, fuel = more + 1 := ⟨fuel - 1, by omega⟩
      exact readItems_of_first (hread fuel (by omega))
  · obtain ⟨hj, ht⟩ := flatMap_chunks depth lead j hmade
    refine .inr ⟨j.indented depth ++ behind.flatMap chunkText, ?_,
      ((opens_indented depth j).append _).flush, fun fuel hfuel => ?_⟩
    · rw [List.flatMap_append, ht, List.append_assoc]
    obtain ⟨fuel, rfl⟩ : ∃ more, fuel = more + 1 := ⟨fuel - 1, by omega⟩
    rw [List.length_append] at hfuel
    have hread (hends : EndsNumber (behind.flatMap chunkText)) :=
      readValue_indented depth fuel j _ hj hends (by omega)
    cases items with
    | nil =>
      rcases hbehind.cons with rfl | ⟨bracket, rfl, hbracket⟩
      · exact readItems_of_end (hread nofun) rfl
      · obtain rfl := hbracket.singleton
        exact readItems_of_end (hread (endsNumber_newline_append depth' []))
          (skipSpace_newline_append depth' [])
    | cons next items =>
      simp only [itemChunks, List.append_assoc] at hbehind
      rcases readItems_of_breaksOff depth depth' _ next items behind hbehind with
        rfl | ⟨t, ht, hflush, hitems⟩
      · exact readItems_of_end (hread nofun) rfl
      · rw [ht] at hread hfuel ⊢
        simp only [List.length_append] at hfuel
        -- the comma has paid for the step of the item
        have hcomma : (Text.ofString ",").length = 1 := rfl
        have hmore := readItems_more (hread (endsNumber_cons _ (by decide))) hflush
        rw [hitems fuel (by omega)] at hmore
        exact hmore
termination_by sizeOf j + sizeOf items + 1

/-- The members of an object of which some chunks are missing cannot be read. -/
theorem readMembers_of_breaksOff (depth depth' fuel : Nat) (before : List (Text × Json))
    (name : Text) (j : Json) (members : List (Text × Json)) (front : List (Except Fault Text))
    (h : BreaksOff front (memberChunks depth ((name, j) :: members) ++
      [.ok (newline depth'), .ok "\x7d"]))
    (hfuel : 2 * (front.flatMap chunkText).length + 1 ≤ fuel) :
    readMembers fuel before (front.flatMap chunkText) = .error .malformed := by
  obtain ⟨fuel, rfl⟩ : ∃ more, fuel = more + 1 := ⟨fuel - 1, by omega⟩
  simp only [memberChunks, List.cons_append, List.append_assoc] at h
  rcases h.cons with rfl | ⟨front, rfl, hcolon⟩
  · exact readMembers_nil _ before
  rcases hcolon.cons with rfl | ⟨front, rfl, hvalue⟩
  · rw [List.flatMap_singleton, chunkText_ok, string_eq]
    exact readMembers_of_name (readString_append name [])
  have htext : ((Except.ok (string name) :: .ok ": " :: front).flatMap chunkText) =
      CodePoint.ofChar '"' :: (name.flatMap stringPart ++ (CodePoint.ofChar '"' ::
        CodePoint.ofChar ':' :: CodePoint.ofChar ' ' :: front.flatMap chunkText)) := by
    simp [string_eq, Text.ofString]
  rw [htext] at hfuel ⊢
  simp only [List.length_cons, List.length_append] at hfuel
  have hname := readString_append name
    (CodePoint.ofChar ':' :: CodePoint.ofChar ' ' :: front.flatMap chunkText)
  rcases hvalue.append with hwithin | ⟨behind, rfl, hmade, hbehind⟩
  · rcases unreadable_of_breaksOff depth [] j front hwithin with rfl | ⟨t, ht, hflush, hread⟩
    · exact readMembers_of_value hname flush_nil (unreadable_nil fuel (Nat.zero_le fuel))
    · rw [List.nil_append] at ht
      rw [ht] at hname hfuel ⊢
      exact readMembers_of_value hname hflush (hread fuel (by omega))
  · obtain ⟨hj, ht⟩ := flatMap_chunks depth [] j hmade
    rw [List.flatMap_append, ht, List.nil_append] at hname hfuel ⊢
    rw [List.length_append] at hfuel
    have hflush := ((opens_indented depth j).append (behind.flatMap chunkText)).flush
    have hread (hends : EndsNumber (behind.flatMap chunkText)) :=
      readValue_indented depth fuel j _ hj hends (by omega)
    cases members with
    | nil =>
      rcases hbehind.cons with rfl | ⟨brace, rfl, hbrace⟩
      · exact readMembers_of_end hname hflush (hread nofun) rfl
      · obtain rfl := hbrace.singleton
        exact readMembers_of_end hname hflush (hread (endsNumber_newline_append depth' []))
          (skipSpace_newline_append depth' [])
    | cons m members =>
      cases m with | mk next j'
      simp only [List.isEmpty_cons, Bool.false_eq_true, if_false, List.cons_append,
        List.nil_append] at hbehind
      rcases hbehind.cons with rfl | ⟨behind, rfl, hmembers⟩
      · exact readMembers_of_end hname hflush (hread nofun) rfl
      · rw [readMembers_eq hname hflush, hread (endsNumber_cons _ (by decide))]
        refine (readBehind_comma hmembers.flush_members).trans ?_
        refine readMembers_of_breaksOff depth depth' fuel _ next j' members behind hmembers ?_
        rw [List.flatMap_cons, List.length_append] at hfuel
        omega
termination_by sizeOf j + sizeOf members + 1

end

/-- A document of which some chunks are missing is malformed. -/
theorem read_of_breaksOff {j : Json} (h : BreaksOff front (Json.chunks 0 [] j)) :
    read (front.flatMap chunkText) = .error .malformed := by
  obtain ⟨t, ht, hflush, hunread⟩ : ∃ t, front.flatMap chunkText = t ∧ Flush t ∧ Unreadable t := by
    rcases unreadable_of_breaksOff 0 [] j front h with rfl | hcut
    · exact ⟨[], rfl, flush_nil, unreadable_nil⟩
    · exact hcut
  rw [ht, read, hflush.skipSpace]
  exact bind_eq_error_iff.mpr (.inl (hunread _ (Nat.le_add_right _ 2)))

end Json

end DiceBot
