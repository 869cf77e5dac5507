import DiceBot.Proofs.Checked
import DiceBot.Proofs.Json.Numeral
import DiceBot.Proofs.Json.Quoted

/-!
# Indented documents read back

The chunks of a value make up its indented form, and reading that form gives the value again, but
for two things: a double is the one nearest to the decimal that was written, and of several members
of one name the last one counts.

## Main definitions

* `Json.indented`: the indented form of a value
* `Json.IsWritable`: whether every integer of a value is within the limit
* `Json.reread`: the value that is read where a value was written

## Main results

* `Json.flatMap_chunks`: the chunks of a value make up its indented form
* `Json.read_indented`: the indented form is read back
-/

namespace DiceBot

namespace Json

/-! ## The indented form -/

mutual

/-- The indented form of a value at a depth of indentation. -/
def indented (depth : Nat) : Json → Text
  | null => "null"
  | bool true => "true"
  | bool false => "false"
  | integer n => Text.integer n
  | float x => floatText x
  | text t => string t
  | array [] => "[]"
  | array (j :: rest) =>
    CodePoint.ofChar '[' :: (newline (depth + 1) ++ (indented (depth + 1) j
      ++ (indentedItems (depth + 1) rest ++ (newline depth ++ [CodePoint.ofChar ']']))))
  | object [] => "\x7b\x7d"
  | object (m :: rest) =>
    CodePoint.ofChar '\x7b' :: (newline (depth + 1) ++ (indentedMembers (depth + 1) (m :: rest)
      ++ (newline depth ++ [CodePoint.ofChar '\x7d'])))

/-- The items behind the first one, each behind its comma. -/
def indentedItems (depth : Nat) : List Json → Text
  | [] => []
  | j :: rest =>
    CodePoint.ofChar ',' :: (newline depth ++ (indented depth j ++ indentedItems depth rest))

/-- The members of an object, with commas between them. -/
def indentedMembers (depth : Nat) : List (Text × Json) → Text
  | [] => []
  | (name, j) :: rest =>
    string name ++ (CodePoint.ofChar ':' :: CodePoint.ofChar ' ' :: (indented depth j
      ++ ((if rest.isEmpty then [] else CodePoint.ofChar ',' :: newline depth)
        ++ indentedMembers depth rest)))

end

mutual

/-- Whether every integer of a value is within the limit. -/
def IsWritable : Json → Prop
  | integer n => n.natAbs < tenTo maxNumeralDigits
  | array items => ItemsWritable items
  | object members => MembersWritable members
  | _ => True

/-- Whether all items are writable. -/
def ItemsWritable : List Json → Prop
  | [] => True
  | j :: rest => IsWritable j ∧ ItemsWritable rest

/-- Whether all members are writable. -/
def MembersWritable : List (Text × Json) → Prop
  | [] => True
  | (_, j) :: rest => IsWritable j ∧ MembersWritable rest

end

/-! ## Chunks -/

/-- Whether a chunk can be made. -/
def IsMade (chunk : Except Fault Text) : Prop :=
  ∃ piece, chunk = .ok piece

/-- What a chunk adds to a file. -/
def chunkText (chunk : Except Fault Text) : Text :=
  chunk.toOption.getD []

@[simp]
theorem chunkText_ok (piece : Text) : chunkText (.ok piece) = piece :=
  rfl

theorem plainChunk_of_isMade {j : Json} {lead : Text}
    (h : IsMade ((plainChunk j).map (lead ++ ·))) : IsMade (plainChunk j) := by
  cases hj : plainChunk j with
  | ok piece => exact ⟨piece, rfl⟩
  | error fault =>
    rw [hj] at h
    obtain ⟨piece, ⟨⟩⟩ := h

mutual

/-- The chunks of a value make up its indented form, and can be made only if it is writable. -/
theorem flatMap_chunks (depth : Nat) (lead : Text) (j : Json)
    (h : ∀ chunk ∈ chunks depth lead j, IsMade chunk) :
    j.IsWritable ∧ (chunks depth lead j).flatMap chunkText = lead ++ j.indented depth := by
  cases j with
  | null => exact ⟨trivial, by simp [chunks, plainChunk, indented, Except.map]⟩
  | bool b => cases b <;> exact ⟨trivial, by simp [chunks, plainChunk, indented, Except.map]⟩
  | integer n =>
    obtain ⟨piece, hpiece⟩ := plainChunk_of_isMade (h _ (List.mem_singleton.mpr rfl))
    have hn := Text.exists_writeInteger_eq_ok_iff.mp ⟨piece, hpiece⟩
    have hwrite : Text.writeInteger n = .ok (Text.integer n) := if_pos hn
    exact ⟨hn, by simp [chunks, plainChunk, indented, Except.map, hwrite]⟩
  | float x => exact ⟨trivial, by simp [chunks, plainChunk, indented, Except.map]⟩
  | text t => exact ⟨trivial, by simp [chunks, plainChunk, indented, Except.map]⟩
  | array items =>
    cases items with
    | nil => exact ⟨trivial, by simp [chunks, plainChunk, indented, Except.map]⟩
    | cons j rest =>
      simp only [chunks, List.mem_append, List.mem_cons] at h
      obtain ⟨hj, htext⟩ := flatMap_chunks (depth + 1) ("[" ++ newline (depth + 1)) j
        fun chunk hchunk => h chunk (.inl (.inl (.inr hchunk)))
      obtain ⟨hrest, htexts⟩ := flatMap_itemChunks (depth + 1) rest
        fun chunk hchunk => h chunk (.inl (.inr hchunk))
      refine ⟨⟨hj, hrest⟩, ?_⟩
      simp only [chunks, List.flatMap_append, List.flatMap_cons, htext, htexts, indented]
      simp [Text.ofString]
  | object members =>
    cases members with
    | nil => exact ⟨trivial, by simp [chunks, plainChunk, indented, Except.map]⟩
    | cons m rest =>
      simp only [chunks, List.mem_append, List.mem_cons] at h
      obtain ⟨hmembers, htext⟩ := flatMap_memberChunks (depth + 1) (m :: rest)
        fun chunk hchunk => h chunk (.inl (.inr (.inr (.inr hchunk))))
      refine ⟨hmembers, ?_⟩
      simp [chunks, htext, indented, Text.ofString]

theorem flatMap_itemChunks (depth : Nat) (items : List Json)
    (h : ∀ chunk ∈ itemChunks depth items, IsMade chunk) :
    ItemsWritable items ∧
      (itemChunks depth items).flatMap chunkText = indentedItems depth items := by
  cases items with
  | nil => exact ⟨trivial, rfl⟩
  | cons j rest =>
    simp only [itemChunks, List.mem_append] at h
    obtain ⟨hj, htext⟩ := flatMap_chunks depth ("," ++ newline depth) j
      fun chunk hchunk => h chunk (.inl hchunk)
    obtain ⟨hrest, htexts⟩ := flatMap_itemChunks depth rest
      fun chunk hchunk => h chunk (.inr hchunk)
    refine ⟨⟨hj, hrest⟩, ?_⟩
    simp only [itemChunks, List.flatMap_append, htext, htexts, indentedItems]
    simp [Text.ofString]

theorem flatMap_memberChunks (depth : Nat) (members : List (Text × Json))
    (h : ∀ chunk ∈ memberChunks depth members, IsMade chunk) :
    MembersWritable members ∧
      (memberChunks depth members).flatMap chunkText = indentedMembers depth members := by
  cases members with
  | nil => exact ⟨trivial, rfl⟩
  | cons m rest =>
    obtain ⟨name, j⟩ := m
    simp only [memberChunks, List.mem_append, List.mem_cons] at h
    obtain ⟨hj, htext⟩ := flatMap_chunks depth [] j
      fun chunk hchunk => h chunk (.inl (.inl (.inr (.inr hchunk))))
    obtain ⟨hrest, htexts⟩ := flatMap_memberChunks depth rest
      fun chunk hchunk => h chunk (.inr hchunk)
    refine ⟨⟨hj, hrest⟩, ?_⟩
    simp only [memberChunks, List.flatMap_append, List.flatMap_cons, htext, htexts, indentedMembers]
    cases rest with
    | nil => simp [Text.ofString]
    | cons m rest => simp [Text.ofString]

end

/-! ## The value that is read -/

mutual

/-- The value that is read where a value was written. -/
def reread : Json → Json
  | float x => float (rereadFloat x)
  | array items => array (rereadItems items)
  | object members => object (rereadMembers [] members)
  | j => j

/-- The items that are read where items were written. -/
def rereadItems : List Json → List Json
  | [] => []
  | j :: rest => j.reread :: rereadItems rest

/-- The members that are read where members were written, put to those read before. -/
def rereadMembers (before : List (Text × Json)) : List (Text × Json) → List (Text × Json)
  | [] => before
  | (name, j) :: rest => rereadMembers (put before name j.reread) rest

end

/-! ## Beginnings and ends -/

/-- A mark with which a number or a word may begin: no blank and no mark of the structure. -/
def isPlainMark (c : CodePoint) : Bool :=
  !isSpace c && c ≠ '"' && c ≠ '[' && c ≠ ']' && c ≠ '\x7b' && c ≠ '\x7d'

/-- The first code point of a text that is no blank and closes nothing. -/
def Opens (t : Text) : Prop :=
  ∃ c rest, t = c :: rest ∧ isSpace c = false ∧ c ≠ ']' ∧ c ≠ '\x7d'

theorem Opens.append {t : Text} (h : Opens t) (rest : Text) : Opens (t ++ rest) := by
  obtain ⟨c, more, rfl, hc⟩ := h
  exact ⟨c, more ++ rest, rfl, hc⟩

theorem Opens.skipSpace {t : Text} (h : Opens t) : skipSpace t = t := by
  obtain ⟨c, rest, rfl, hc, -⟩ := h
  exact List.dropWhile_cons_of_neg (by simp [hc])

theorem skipSpace_newline_append (depth : Nat) (t : Text) :
    skipSpace (newline depth ++ t) = skipSpace t := by
  apply List.dropWhile_append_of_pos
  intro c hc
  rcases List.mem_cons.mp hc with rfl | hc
  · rfl
  · rw [List.eq_of_mem_replicate hc]
    rfl

theorem isPlainMark_of_asciiDigit? {c : CodePoint} (h : c.asciiDigit?.isSome = true) :
    isPlainMark c = true := by
  have hne : ∀ mark : Char, (CodePoint.ofChar mark).asciiDigit?.isSome = false →
      c ≠ CodePoint.ofChar mark := fun _ hmark => (ofChar_ne_of_asciiDigit? h hmark).symm
  simp [isPlainMark, isSpace, hne '"' (by decide), hne '[' (by decide), hne ']' (by decide),
    hne '\x7b' (by decide), hne '\x7d' (by decide), hne ' ' (by decide), hne '\t' (by decide),
    hne '\n' (by decide), hne '\r' (by decide)]

/-- Whether a text begins as a number or a word does. -/
def BeginsPlain (t : Text) : Prop :=
  ∃ c rest, t = c :: rest ∧ isPlainMark c = true

theorem IsWhole.beginsPlain {whole : Text} (h : IsWhole whole) (rest : Text) :
    BeginsPlain (whole ++ rest) := by
  obtain ⟨c, digits, rfl⟩ := List.exists_cons_of_ne_nil h.ne_nil
  exact ⟨c, digits ++ rest, rfl, isPlainMark_of_asciiDigit? (h.digits c List.mem_cons_self)⟩

theorem beginsPlain_integer (n : Int) : BeginsPlain (Text.integer n) := by
  cases n with
  | ofNat n =>
    have h := (isWhole_natural n).beginsPlain []
    rwa [List.append_nil] at h
  | negSucc n => exact ⟨'-', _, rfl, by decide⟩

theorem beginsPlain_floatText (x : Float) : BeginsPlain (floatText x) := by
  unfold floatText
  cases hx : Extent.ofFloat x with
  | finite m =>
    dsimp only
    rw [Text.float, hx]
    dsimp only
    cases floatIsNegative x with
    | true => exact ⟨'-', _, rfl, by decide⟩
    | false =>
      rw [Decimal.laidOut_eq]
      exact (Decimal.isProper_parts m.shortest_digits).whole.beginsPlain _
  | infinite =>
    cases floatIsNegative x with
    | true => exact ⟨'-', _, rfl, by decide⟩
    | false => exact ⟨'I', _, rfl, by decide⟩
  | undefined => exact ⟨'N', _, rfl, by decide⟩

theorem BeginsPlain.opens {t : Text} (h : BeginsPlain t) : Opens t := by
  obtain ⟨c, rest, rfl, hc⟩ := h
  simp only [isPlainMark, Bool.and_eq_true, Bool.not_eq_true', decide_eq_true_eq] at hc
  obtain ⟨⟨⟨⟨⟨hspace, -⟩, -⟩, hbracket⟩, -⟩, hbrace⟩ := hc
  exact ⟨c, rest, rfl, hspace, hbracket, hbrace⟩

theorem BeginsPlain.readValue {t : Text} (h : BeginsPlain t) (fuel : Nat) (rest : Text) :
    readValue (fuel + 1) (t ++ rest) = readPlain (t ++ rest) := by
  obtain ⟨c, more, rfl, hc⟩ := h
  simp only [isPlainMark, Bool.and_eq_true, Bool.not_eq_true', decide_eq_true_eq] at hc
  obtain ⟨⟨⟨⟨⟨-, hquote⟩, hbracket⟩, -⟩, hbrace⟩, -⟩ := hc
  rw [List.cons_append, Json.readValue, if_neg hquote, if_neg hbracket, if_neg hbrace]

theorem opens_indented (depth : Nat) (j : Json) : Opens (j.indented depth) := by
  cases j with
  | null => exact ⟨'n', _, rfl, by decide⟩
  | bool b =>
    cases b with
    | true => exact ⟨'t', _, rfl, by decide⟩
    | false => exact ⟨'f', _, rfl, by decide⟩
  | integer n =>
    simp only [indented]
    exact (beginsPlain_integer n).opens
  | float x =>
    simp only [indented]
    exact (beginsPlain_floatText x).opens
  | text t => exact ⟨'"', _, by simp only [indented, string_eq]; rfl, by decide⟩
  | array items =>
    cases items <;> exact ⟨'[', _, by simp only [indented]; rfl, by decide⟩
  | object members =>
    cases members <;> exact ⟨'\x7b', _, by simp only [indented]; rfl, by decide⟩

theorem endsNumber_cons {c : CodePoint} (rest : Text)
    (h : c.asciiDigit?.isSome = false ∧ c ≠ '.' ∧ c ≠ 'e' ∧ c ≠ 'E') : EndsNumber (c :: rest) := by
  rintro d ⟨⟩
  exact h

theorem endsNumber_newline_append (depth : Nat) (rest : Text) :
    EndsNumber (newline depth ++ rest) :=
  endsNumber_cons _ (by decide)

/-! ## Reading the indented form -/

theorem endsNumber_indentedItems_append (depth depth' : Nat) (items : List Json) (rest : Text) :
    EndsNumber (indentedItems depth items ++ (newline depth' ++ rest)) := by
  cases items with
  | nil => exact endsNumber_newline_append depth' rest
  | cons j items =>
    simp only [indentedItems]
    exact endsNumber_cons _ (by decide)

/-! ### Steps of the reader -/

section Steps

variable {fuel depth : Nat} {t behind rest : Text}

theorem skipSpace_newline_cons {c : CodePoint} (h : isSpace c = false) :
    skipSpace (newline depth ++ c :: rest) = c :: rest :=
  (skipSpace_newline_append depth _).trans (List.dropWhile_cons_of_neg (by simp [h]))

/-- A text that no blanks lead and that closes nothing; it may be empty. -/
structure Flush (t : Text) : Prop where
  skipSpace : skipSpace t = t
  head?_ne : t.head? ≠ some (CodePoint.ofChar ']') ∧ t.head? ≠ some (CodePoint.ofChar '\x7d')

theorem Opens.flush (h : Opens t) : Flush t := by
  refine ⟨h.skipSpace, ?_⟩
  obtain ⟨c, more, rfl, -, hbracket, hbrace⟩ := h
  exact ⟨fun he => hbracket (Option.some.inj he), fun he => hbrace (Option.some.inj he)⟩

theorem Flush.skipSpace_newline (h : Flush t) : Json.skipSpace (newline depth ++ t) = t :=
  (skipSpace_newline_append depth t).trans h.skipSpace

theorem skipSpace_comma (t : Text) :
    skipSpace (CodePoint.ofChar ',' :: t) = CodePoint.ofChar ',' :: t :=
  rfl

theorem readValue_bracket (h : Flush t) :
    readValue (fuel + 1) (CodePoint.ofChar '[' :: (newline depth ++ t)) = (do
      let (items, rest) ← readItems fuel t
      return (array items, rest)) := by
  rw [readValue, if_neg (by decide), if_pos rfl]
  dsimp only
  rw [h.skipSpace_newline, if_neg h.head?_ne.1]

theorem readValue_brace (h : Flush t) :
    readValue (fuel + 1) (CodePoint.ofChar '\x7b' :: (newline depth ++ t)) = (do
      let (members, rest) ← readMembers fuel [] t
      return (object members, rest)) := by
  rw [readValue, if_neg (by decide), if_neg (by decide), if_pos rfl]
  dsimp only
  rw [h.skipSpace_newline, if_neg h.head?_ne.2]

theorem readItems_last {item : Json}
    (h : readValue fuel t = .ok (item, newline depth ++ CodePoint.ofChar ']' :: rest)) :
    readItems (fuel + 1) t = .ok ([item], rest) := by
  rw [readItems]
  refine bind_eq_ok_iff.mpr ⟨_, h, ?_⟩
  dsimp only
  rw [skipSpace_newline_cons (by decide)]
  rfl

theorem readItems_more {item : Json}
    (h : readValue fuel t = .ok (item, CodePoint.ofChar ',' :: (newline depth ++ behind)))
    (hbehind : Flush behind) :
    readItems (fuel + 1) t = (do
      let (items, rest) ← readItems fuel behind
      return (item :: items, rest)) := by
  rw [readItems, h]
  have hopen : CodePoint.ofChar ',' ≠ CodePoint.ofChar ']' := by decide
  simp only [bind, Except.bind, skipSpace_comma, if_neg hopen, if_true, hbehind.skipSpace_newline]

section Members

variable {before : List (Text × Json)} {name value : Text} {j : Json}

/-- The members of an object from what stands behind the value of one of them. -/
def readBehind (fuel : Nat) (members : List (Text × Json)) (t : Text) :
    Except Flaw (List (Text × Json) × Text) :=
  match skipSpace t with
  | c :: rest =>
    if c = '\x7d' then pure (members, rest)
    else if c = ',' then readMembers fuel members (skipSpace rest)
    else throw .malformed
  | [] => throw .malformed

theorem readBehind_of_blank {members : List (Text × Json)} (h : skipSpace t = []) :
    readBehind fuel members t = .error .malformed := by
  rw [readBehind, h]
  rfl

theorem readBehind_brace (depth : Nat) (members : List (Text × Json)) :
    readBehind fuel members (newline depth ++ CodePoint.ofChar '\x7d' :: rest) =
      .ok (members, rest) := by
  rw [readBehind, skipSpace_newline_cons (by decide)]
  rfl

theorem readBehind_comma {members : List (Text × Json)} (h : Flush t) :
    readBehind fuel members (CodePoint.ofChar ',' :: (newline depth ++ t)) =
      readMembers fuel members t := by
  rw [readBehind, skipSpace_comma]
  dsimp only
  rw [if_neg (by decide), if_pos rfl, h.skipSpace_newline]

/-- Behind a name and its colon the value is read, and then what is behind it. -/
theorem readMembers_eq
    (hname : readString t = .ok (name, CodePoint.ofChar ':' :: CodePoint.ofChar ' ' :: value))
    (hvalue : Flush value) :
    readMembers (fuel + 1) before (CodePoint.ofChar '"' :: t) = (do
      let (j, behind) ← readValue fuel value
      readBehind fuel (put before name j) behind) := by
  have hcolon (more : Text) :
      skipSpace (CodePoint.ofChar ':' :: more) = CodePoint.ofChar ':' :: more := rfl
  have hspace : skipSpace (CodePoint.ofChar ' ' :: value) = value := hvalue.skipSpace
  rw [readMembers, if_pos rfl, hname]
  simp only [bind, Except.bind, hcolon, if_true, hspace]
  rfl

end Members

end Steps

/-! ### The whole form -/

theorem opens_indentedMembers (depth : Nat) (m : Text × Json) (members : List (Text × Json)) :
    Opens (indentedMembers depth (m :: members)) := by
  obtain ⟨name, j⟩ := m
  exact ⟨'"', _, by simp only [indentedMembers, string_eq]; rfl, by decide⟩

mutual

/-- The indented form of a value is read up to its end. -/
theorem readValue_indented (depth fuel : Nat) (j : Json) (rest : Text) (hj : j.IsWritable)
    (hrest : EndsNumber rest) (hfuel : 2 * (j.indented depth).length ≤ fuel) :
    readValue fuel (j.indented depth ++ rest) = .ok (j.reread, rest) := by
  have hpos : 0 < (j.indented depth).length := by
    obtain ⟨c, more, h, -⟩ := opens_indented depth j
    rw [h, List.length_cons]
    exact Nat.succ_pos _
  -- no form is empty, so there is fuel for one step
  obtain ⟨fuel, rfl⟩ : ∃ more, fuel = more + 1 := ⟨fuel - 1, by omega⟩
  cases j with
  | null => rfl
  | bool b => cases b <;> rfl
  | integer n =>
    simp only [indented, reread, (beginsPlain_integer n).readValue]
    exact readPlain_integer hj hrest
  | float x =>
    simp only [indented, reread, (beginsPlain_floatText x).readValue]
    exact readPlain_floatText hrest
  | text t =>
    simp only [indented, string_eq, reread, List.cons_append, List.append_assoc, List.nil_append,
      readValue, readString_append, if_true]
    rfl
  | array items =>
    cases items with
    | nil => rfl
    | cons j items =>
      obtain ⟨hj, hitems⟩ := hj
      simp only [indented, List.cons_append, List.append_assoc, List.nil_append, reread]
      -- the step of the bracket has paid for the one that the items take
      rw [readValue_bracket ((opens_indented _ j).append _).flush,
        readItems_indented (depth + 1) depth fuel j items rest hj hitems ?_]
      · rfl
      · simp only [indented, List.length_cons, List.length_append] at hfuel ⊢
        omega
  | object members =>
    cases members with
    | nil => rfl
    | cons m members =>
      cases m with
      | mk name j =>
        obtain ⟨hj, hmembers⟩ := hj
        simp only [indented, List.cons_append, List.append_assoc, List.nil_append, reread]
        rw [readValue_brace ((opens_indentedMembers _ _ members).append _).flush,
          readMembers_indented (depth + 1) depth fuel [] name j members rest hj hmembers ?_]
        · rfl
        · simp only [indented, List.length_cons, List.length_append] at hfuel ⊢
          omega
termination_by sizeOf j

/-- The items of an array are read up to its closing bracket. -/
theorem readItems_indented (depth depth' fuel : Nat) (j : Json) (items : List Json) (rest : Text)
    (hj : j.IsWritable) (hitems : ItemsWritable items)
    (hfuel : 2 * (j.indented depth ++ indentedItems depth items).length + 1 ≤ fuel) :
    readItems fuel (j.indented depth ++ (indentedItems depth items ++ (newline depth' ++
      CodePoint.ofChar ']' :: rest))) = .ok (rereadItems (j :: items), rest) := by
  obtain ⟨fuel, rfl⟩ : ∃ more, fuel = more + 1 := ⟨fuel - 1, by omega⟩
  rw [List.length_append] at hfuel
  have hread := readValue_indented depth fuel j _ hj
    (endsNumber_indentedItems_append depth depth' items (CodePoint.ofChar ']' :: rest)) (by omega)
  cases items with
  | nil => exact readItems_last hread
  | cons next items =>
    obtain ⟨hnext, hitems⟩ := hitems
    simp only [indentedItems, List.cons_append, List.append_assoc] at hread ⊢
    rw [readItems_more hread ((opens_indented _ next).append _).flush,
      readItems_indented depth depth' fuel next items rest hnext hitems ?_]
    · rfl
    · simp only [indentedItems, List.length_cons, List.length_append] at hfuel ⊢
      omega
termination_by sizeOf j + sizeOf items + 1

/-- The members of an object are read up to its closing brace. -/
theorem readMembers_indented (depth depth' fuel : Nat) (before : List (Text × Json))
    (name : Text) (j : Json) (members : List (Text × Json)) (rest : Text)
    (hj : j.IsWritable) (hmembers : MembersWritable members)
    (hfuel : 2 * (indentedMembers depth ((name, j) :: members)).length + 1 ≤ fuel) :
    readMembers fuel before (indentedMembers depth ((name, j) :: members) ++ (newline depth' ++
      CodePoint.ofChar '\x7d' :: rest)) =
        .ok (rereadMembers before ((name, j) :: members), rest) := by
  obtain ⟨fuel, rfl⟩ : ∃ more, fuel = more + 1 := ⟨fuel - 1, by omega⟩
  simp only [indentedMembers, string_eq, List.length_append, List.length_cons] at hfuel
  have hlength : 2 * (j.indented depth).length ≤ fuel := by omega
  cases members with
  | nil =>
    have hread := readValue_indented depth fuel j _ hj
      (endsNumber_newline_append depth' (CodePoint.ofChar '\x7d' :: rest)) hlength
    simp only [indentedMembers, string_eq, List.isEmpty_nil, if_true, List.cons_append,
      List.append_assoc, List.nil_append]
    rw [readMembers_eq (readString_append name _) ((opens_indented _ j).append _).flush, hread]
    exact readBehind_brace depth' _
  | cons m members =>
    cases m with
    | mk next j' =>
      obtain ⟨hj', hmembers⟩ := hmembers
      have hread := readValue_indented depth fuel j (CodePoint.ofChar ',' :: (newline depth ++
        (indentedMembers depth ((next, j') :: members) ++ (newline depth' ++
          CodePoint.ofChar '\x7d' :: rest)))) hj (endsNumber_cons _ (by decide)) hlength
      rw [indentedMembers]
      simp only [string_eq, List.isEmpty_cons, List.cons_append, List.append_assoc, List.nil_append,
        Bool.false_eq_true, if_false]
      rw [readMembers_eq (readString_append name _) ((opens_indented _ j).append _).flush, hread]
      refine (readBehind_comma ((opens_indentedMembers _ _ members).append _).flush).trans ?_
      refine readMembers_indented depth depth' fuel (put before name j.reread) next j' members rest
        hj' hmembers ?_
      omega
termination_by sizeOf j + sizeOf members + 1

end

/-- The indented form of a value is read back. -/
theorem read_indented {j : Json} (h : j.IsWritable) : read (j.indented 0) = .ok j.reread := by
  have hread := readValue_indented 0 (2 * (j.indented 0).length + 2) j [] h nofun (by omega)
  rw [List.append_nil] at hread
  rw [read, (opens_indented 0 j).skipSpace]
  exact bind_eq_ok_iff.mpr ⟨_, hread, rfl⟩

end Json

end DiceBot
