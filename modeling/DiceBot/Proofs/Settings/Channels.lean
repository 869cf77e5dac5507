import DiceBot.Proofs.Checked
import DiceBot.Proofs.Token.Proper
import DiceBot.Settings.Keeper

/-!
# Channels that the environment allows

The parts of the variable are sifted by how they look and read by what they are. Most parts that
look like a number are one, but not all of them: a superscript looks like a digit, an information
separator is trimmed like a blank that may stand around an integer, and a numeral may have more
digits than are read. A part of this kind is not skipped. No channel is read then, and the bot does
not start.

## Main definitions

* `WrittenInteger`, `Text.DenotesInteger`: the texts that are integers
* `Settings.IsChannel`: the parts without such signs

## Main results

* `Settings.readChannel_eq_ok_iff`: a part that looks like a number is read as the integer it is
* `Settings.readChannels_eq_ok_iff`: which channels a variable names, and when it names none
-/

namespace DiceBot

/-! ## Integers -/

/-- An integer as it may be written: a sign or none, and groups of digits with an underscore between
neighbours. Blanks may stand around it. -/
structure WrittenInteger where
  /-- The blanks before the integer. -/
  before : Text
  /-- The sign. -/
  sign : Text
  /-- The groups of digits. -/
  groups : List Text
  /-- The blanks behind the integer. -/
  behind : Text
  isBlank : ∀ c ∈ before ++ behind, Settings.isChannelBlank c = true
  sign_mem : sign = [] ∨ sign = "+" ∨ sign = "-"
  groups_ne_nil : groups ≠ []
  isDigits : ∀ digits ∈ groups, digits.IsDigits
  length_le : groups.flatten.length ≤ maxNumeralDigits

namespace WrittenInteger

/-- The text of an integer. -/
def text (w : WrittenInteger) : Text :=
  w.before ++ w.sign ++ Text.joined "_" w.groups ++ w.behind

/-- The integer. -/
def value (w : WrittenInteger) : Int :=
  if w.sign = "-" then -(Text.digitsValue w.groups.flatten : Int)
  else Text.digitsValue w.groups.flatten

end WrittenInteger

/-- Whether a text is an integer. -/
def Text.DenotesInteger (t : Text) (n : Int) : Prop :=
  ∃ w : WrittenInteger, w.text = t ∧ w.value = n

/-! ## Blanks and digits -/

namespace CodePoint

variable {c : CodePoint}

/-- No sign that stands for a digit is white space. -/
theorem isBlank_of_isDigitLike (h : c.isDigitLike = true) : c.isBlank = false := by
  have apart : ∀ r ∈ blankRanges, ∀ s ∈ digitSignRanges, r.2 < s.1 ∨ s.2 < r.1 := by
    decide
  rcases Bool.or_eq_true _ _ ▸ h with h | h
  · exact isBlank_of_isDigit h
  · simp only [isIn, List.any_eq_true] at h
    obtain ⟨s, hs, hc⟩ := h
    simp only [isBlank, isIn, List.any_eq_false]
    intro r hr hb
    have := apart r hr s hs
    simp only [Bool.and_eq_true, decide_eq_true_eq] at hc hb
    omega

theorem isBlank_of_isChannelBlank (h : Settings.isChannelBlank c = true) : c.isBlank = true :=
  (Bool.and_eq_true _ _ ▸ h).1

theorem isDigit_of_isBlank (h : c.isBlank = true) : c.isDigit = false := by
  by_contra hdigit
  rw [isBlank_of_isDigit (by simpa using hdigit)] at h
  cases h

theorem isChannelBlank_of_isDigit (h : c.isDigit = true) : Settings.isChannelBlank c = false := by
  rw [Settings.isChannelBlank, isBlank_of_isDigit h, Bool.false_and]

end CodePoint

namespace Text

/-- A text is what is left of it without the blanks at its ends, between those blanks. -/
theorem exists_trimmed (t : Text) :
    ∃ before behind, t = before ++ t.trimmed ++ behind ∧
      ∀ c ∈ before ++ behind, c.isBlank = true := by
  refine ⟨t.takeWhile CodePoint.isBlank,
    ((t.dropWhile CodePoint.isBlank).reverse.takeWhile CodePoint.isBlank).reverse, ?_, ?_⟩
  · rw [List.append_assoc, trimmed, ← List.reverse_append, List.takeWhile_append_dropWhile,
      List.reverse_reverse, List.takeWhile_append_dropWhile]
  · rw [List.forall_mem_append]
    exact ⟨fun c hc => List.mem_takeWhile_imp hc,
      fun c hc => List.mem_takeWhile_imp (List.mem_reverse.mp hc)⟩

end Text

namespace Settings

variable {part before digits behind : Text} {n : Int}

/-! ## Parts that look like a number -/

/-- A part that looks like a number consists of signs for digits between blanks. -/
theorem exists_of_looksLikeChannel (h : looksLikeChannel part = true) :
    ∃ before digits behind, part = before ++ digits ++ behind ∧
      (∀ c ∈ before ++ behind, c.isBlank = true) ∧ digits ≠ [] ∧
      ∀ c ∈ digits, c.isDigitLike = true := by
  obtain ⟨before, behind, hpart, hblank⟩ := part.exists_trimmed
  simp only [looksLikeChannel, Bool.and_eq_true, decide_eq_true_eq, List.all_eq_true] at h
  exact ⟨before, part.trimmed, behind, hpart, hblank, h⟩

/-- A part that looks like a number has neither a sign nor an underscore. -/
theorem notMem_of_looksLikeChannel (h : looksLikeChannel part = true) {c : CodePoint}
    (hblank : c.isBlank = false) (hdigit : c.isDigitLike = false) : c ∉ part := by
  obtain ⟨before, digits, behind, rfl, hblanks, -, hdigits⟩ := exists_of_looksLikeChannel h
  intro hc
  simp only [List.mem_append] at hc
  rcases hc with (hc | hc) | hc
  · exact absurd (hblanks c (List.mem_append_left _ hc)) (by simp [hblank])
  · exact absurd (hdigits c hc) (by simp [hdigit])
  · exact absurd (hblanks c (List.mem_append_right _ hc)) (by simp [hblank])

/-! ## Reading a part -/

/-- Digits between blanks are read. -/
theorem readChannel_of_isDigits (hblank : ∀ c ∈ before ++ behind, isChannelBlank c = true)
    (hdigits : digits.IsDigits) (hlength : digits.length ≤ maxNumeralDigits) :
    readChannel (before ++ digits ++ behind) = .ok (Text.digitsValue digits : Int) := by
  obtain ⟨hbefore, hbehind⟩ := List.forall_mem_append.mp hblank
  have hnumeral : (before ++ digits ++ behind).dropWhile isChannelBlank = digits ++ behind := by
    obtain ⟨d, rest, rfl⟩ := List.exists_cons_of_ne_nil hdigits.1
    have hd := CodePoint.isChannelBlank_of_isDigit (hdigits.2 d List.mem_cons_self)
    rw [List.append_assoc, List.dropWhile_append_of_pos hbefore, List.cons_append,
      List.dropWhile_cons_of_neg (by simp [hd])]
  have hstop : behind.takeWhile CodePoint.isDigit = [] ∧
      behind.dropWhile CodePoint.isDigit = behind := by
    cases behind with
    | nil => exact ⟨rfl, rfl⟩
    | cons c rest =>
      have hc := CodePoint.isDigit_of_isBlank
        (CodePoint.isBlank_of_isChannelBlank (hbehind c List.mem_cons_self))
      exact ⟨List.takeWhile_cons_of_neg (by simp [hc]), List.dropWhile_cons_of_neg (by simp [hc])⟩
  unfold readChannel
  dsimp only
  rw [hnumeral, List.takeWhile_append_of_pos hdigits.2, List.dropWhile_append_of_pos hdigits.2,
    hstop.1, hstop.2, List.append_nil, if_neg (Nat.not_lt.mpr hlength),
    if_pos ⟨hdigits.1, List.all_eq_true.mpr hbehind⟩]

/-- A part that is read consists of digits between blanks. -/
theorem exists_of_readChannel (h : readChannel part = .ok n) :
    ∃ before digits behind, part = before ++ digits ++ behind ∧
      (∀ c ∈ before ++ behind, isChannelBlank c = true) ∧ digits.IsDigits ∧
      digits.length ≤ maxNumeralDigits ∧ n = Text.digitsValue digits := by
  unfold readChannel at h
  dsimp only at h
  split at h
  · cases h
  rename_i hlength
  split at h
  · rename_i hread
    cases h
    refine ⟨part.takeWhile isChannelBlank,
      (part.dropWhile isChannelBlank).takeWhile CodePoint.isDigit,
      (part.dropWhile isChannelBlank).dropWhile CodePoint.isDigit, ?_, ?_, ⟨hread.1, ?_⟩,
      Nat.le_of_not_lt hlength, rfl⟩
    · rw [List.append_assoc, List.takeWhile_append_dropWhile, List.takeWhile_append_dropWhile]
    · exact List.forall_mem_append.mpr
        ⟨fun c hc => List.mem_takeWhile_imp hc, List.all_eq_true.mp hread.2⟩
    · exact fun c hc => List.mem_takeWhile_imp hc
  · cases h

/-- A part that looks like a number is read as the integer that it is, if it is one. -/
theorem readChannel_eq_ok_iff (h : looksLikeChannel part = true) :
    readChannel part = .ok n ↔ part.DenotesInteger n := by
  constructor
  · intro hread
    obtain ⟨before, digits, behind, rfl, hblank, hdigits, hlength, rfl⟩ :=
      exists_of_readChannel hread
    refine ⟨⟨before, [], [digits], behind, hblank, .inl rfl, List.cons_ne_nil _ _,
      List.forall_mem_singleton.mpr hdigits, by simpa using hlength⟩, ?_, ?_⟩
    · simp [WrittenInteger.text, Text.joined]
    · simp [WrittenInteger.value, Text.ofString]
  · rintro ⟨w, rfl, rfl⟩
    have hsign : w.sign = [] := by
      rcases w.sign_mem with hsign | hsign | hsign
      · exact hsign
      · refine absurd ?_ (notMem_of_looksLikeChannel (c := '+') h (by decide) (by decide))
        simp [WrittenInteger.text, hsign, Text.ofString]
      · refine absurd ?_ (notMem_of_looksLikeChannel (c := '-') h (by decide) (by decide))
        simp [WrittenInteger.text, hsign, Text.ofString]
    obtain ⟨digits, hgroups⟩ : ∃ digits, w.groups = [digits] := by
      rcases hgroups : w.groups with _ | ⟨first, _ | ⟨second, rest⟩⟩
      · exact absurd hgroups w.groups_ne_nil
      · exact ⟨first, rfl⟩
      · refine absurd ?_ (notMem_of_looksLikeChannel (c := '_') h (by decide) (by decide))
        simp [WrittenInteger.text, hgroups, Text.joined, Text.ofString, List.intercalate]
    have hdigits := w.isDigits
    have hlength := w.length_le
    rw [hgroups, List.forall_mem_singleton] at hdigits
    rw [hgroups, List.flatten_singleton] at hlength
    have htext : w.text = w.before ++ digits ++ w.behind := by
      simp [WrittenInteger.text, hsign, hgroups, Text.joined]
    have hvalue : w.value = (Text.digitsValue digits : Int) := by
      simp [WrittenInteger.value, hsign, hgroups, Text.ofString]
    rw [htext, hvalue]
    exact readChannel_of_isDigits w.isBlank hdigits hlength

/-! ## Parts that are read -/

/-- Whether a part that looks like a number is one: its signs for digits are decimal digits, its
blanks may stand around an integer, and the digits are not too many. -/
def IsChannel (part : Text) : Prop :=
  (∀ c ∈ part, c.isDigit = true ∨ isChannelBlank c = true) ∧
    part.countP CodePoint.isDigit ≤ maxNumeralDigits

theorem countP_isDigit_append (hblank : ∀ c ∈ before ++ behind, c.isBlank = true)
    (hdigits : ∀ c ∈ digits, c.isDigit = true) :
    (before ++ digits ++ behind).countP CodePoint.isDigit = digits.length := by
  have hnone : ∀ blanks : Text, (∀ c ∈ blanks, c.isBlank = true) →
      blanks.countP CodePoint.isDigit = 0 := fun blanks hblanks =>
    List.countP_eq_zero.mpr fun c hc => by simp [CodePoint.isDigit_of_isBlank (hblanks c hc)]
  obtain ⟨hbefore, hbehind⟩ := List.forall_mem_append.mp hblank
  rw [List.countP_append, List.countP_append, hnone before hbefore, hnone behind hbehind,
    List.countP_eq_length.mpr hdigits, Nat.zero_add, Nat.add_zero]

/-- Which of the parts that look like a number are read. -/
theorem exists_readChannel_iff_isChannel (h : looksLikeChannel part = true) :
    (∃ n, readChannel part = .ok n) ↔ IsChannel part := by
  constructor
  · rintro ⟨n, hread⟩
    obtain ⟨before, digits, behind, rfl, hblank, hdigits, hlength, -⟩ := exists_of_readChannel hread
    constructor
    · intro c hc
      rw [List.append_assoc, List.mem_append, List.mem_append] at hc
      rcases hc with hc | hc | hc
      · exact .inr (hblank c (List.mem_append_left _ hc))
      · exact .inl (hdigits.2 c hc)
      · exact .inr (hblank c (List.mem_append_right _ hc))
    · rwa [countP_isDigit_append
        (fun c hc => CodePoint.isBlank_of_isChannelBlank (hblank c hc)) hdigits.2]
  · rintro ⟨hsigns, hlength⟩
    obtain ⟨before, digits, behind, rfl, hblank, hne, hlike⟩ := exists_of_looksLikeChannel h
    have hblank' : ∀ c ∈ before ++ behind, isChannelBlank c = true := fun c hc => by
      have hmem : c ∈ before ++ digits ++ behind := by
        rcases List.mem_append.mp hc with hc | hc <;> simp [hc]
      exact (hsigns c hmem).resolve_left (by simp [CodePoint.isDigit_of_isBlank (hblank c hc)])
    have hdigits : ∀ c ∈ digits, c.isDigit = true := fun c hc => by
      refine (hsigns c (by simp [hc])).resolve_right fun hchannel => ?_
      have hnot := CodePoint.isBlank_of_isDigitLike (hlike c hc)
      rw [CodePoint.isBlank_of_isChannelBlank hchannel] at hnot
      cases hnot
    rw [countP_isDigit_append hblank hdigits] at hlength
    exact ⟨_, readChannel_of_isDigits hblank' ⟨hne, hdigits⟩ hlength⟩

/-! ## Reading the variable -/

/-- **The channels that a variable names** are, in order, the integers that its parts are which look
like a number. There are none, and the bot is not started, exactly if one of those parts holds a
sign for a digit that is no decimal digit, an information separator, or too many digits. -/
theorem readChannels_eq_ok_iff (value : Text) :
    (∀ ids, readChannels value = .ok ids ↔
      List.Forall₂ Text.DenotesInteger ((Text.splitOn ',' value).filter looksLikeChannel) ids) ∧
    ((∃ ids, readChannels value = .ok ids) ↔
      ∀ part ∈ Text.splitOn ',' value, looksLikeChannel part = true → IsChannel part) ∧
    ∀ file s, Keeper.readFile file = .ok s →
      Keeper.ofFile (some file) value = (readChannels value).map fun ids => ⟨s, ids, file⟩ := by
  have hlooks : ∀ part ∈ (Text.splitOn ',' value).filter looksLikeChannel,
      looksLikeChannel part = true := fun part hpart => (List.mem_filter.mp hpart).2
  refine ⟨fun ids => ?_, ?_, fun file s hfile => ?_⟩
  · rw [readChannels, mapM_eq_ok_iff]
    constructor
    · intro h
      refine ((List.forall₂_and_left _ _).mpr ⟨hlooks, h⟩).imp ?_
      rintro part n ⟨hlook, hread⟩
      exact (readChannel_eq_ok_iff hlook).mp hread
    · intro h
      refine ((List.forall₂_and_left _ _).mpr ⟨hlooks, h⟩).imp ?_
      rintro part n ⟨hlook, hdenotes⟩
      exact (readChannel_eq_ok_iff hlook).mpr hdenotes
  · rw [readChannels, exists_mapM_eq_ok_iff]
    constructor
    · intro h part hpart hlook
      exact (exists_readChannel_iff_isChannel hlook).mp (h part (List.mem_filter.mpr ⟨hpart, hlook⟩))
    · intro h part hpart
      obtain ⟨hmem, hlook⟩ := List.mem_filter.mp hpart
      exact (exists_readChannel_iff_isChannel hlook).mpr (h part hmem hlook)
  · rw [Keeper.ofFile, hfile]
    cases readChannels value <;> rfl

/-- Parts that are blank, empty, signed or grouped do not look like a number and are skipped; wide
digits and an em space do no harm. -/
def mixedParts : Text :=
  " 7 ,x,１２\u2003,,-5,5_0"

theorem readChannels_mixedParts :
    Keeper.readFile "\x7b\x7d" = .ok Settings.standard ∧
      readChannels mixedParts = .ok [7, 12] ∧
      List.Forall₂ Text.DenotesInteger [" 7 ", "１２\u2003"] [7, 12] ∧
      Keeper.ofFile (some "\x7b\x7d") mixedParts =
        .ok ⟨Settings.standard, [7, 12], "\x7b\x7d"⟩ := by
  have hfile : Keeper.readFile "\x7b\x7d" = .ok Settings.standard := rfl
  have hread : readChannels mixedParts = .ok [7, 12] := by decide +kernel
  obtain ⟨hids, -, hstart⟩ := readChannels_eq_ok_iff mixedParts
  refine ⟨hfile, hread, ?_, ?_⟩
  · have hparts : (Text.splitOn ',' mixedParts).filter looksLikeChannel =
        [Text.ofString " 7 ", Text.ofString "１２\u2003"] := by decide +kernel
    exact hparts ▸ (hids _).mp hread
  · rw [hstart _ _ hfile, hread]
    rfl

/-- A superscript looks like a digit and is none, so no channel is read, and no bot is started. -/
theorem readChannels_superscript :
    looksLikeChannel "²" = true ∧ readChannels "7,²" = .error (.notChannel "²") ∧
      Keeper.ofFile (some "\x7b\x7d") "7,²" = .error (.notChannel "²") :=
  ⟨by decide +kernel, by decide +kernel, rfl⟩

end Settings

end DiceBot
