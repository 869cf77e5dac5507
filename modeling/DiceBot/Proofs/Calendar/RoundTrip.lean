import Mathlib.Algebra.Group.Nat.Defs
import DiceBot.Calendar.Reader
import DiceBot.Proofs.Text.Numeral

/-!
# Timestamps read back

A timestamp that was written is read as itself: its fields have fixed widths, the marks between
them are no digits, and nothing in its text ends the reading early. The one exception is an offset
of less than a second, which is written and then read as the offset of universal time.

## Main definitions

* `CodePoint.IsPlain`: a sign of ASCII other than the letter that stands for universal time
* `Offset.IsLegible`: an offset that is read as it is written
* `Timestamp.reread`: what a timestamp is when it is written and read

## Main results

* `Text.takeDigits?_padded`: a field of fixed width is read back
* `Timestamp.ofText?_text_eq`: what a timestamp is read as
* `Timestamp.ofText?_text`: a timestamp is read back
-/

namespace DiceBot

/-! ## Fields of fixed width -/

namespace Text

theorem length_padded {width n : Nat} (hw : 0 < width) (h : n < 10 ^ width) :
    (padded width n).length = width := by
  have hle : (natural n).length ≤ width := (length_natural_le_iff hw).mpr h
  rw [padded, List.length_append, List.length_replicate]
  omega

/-- A padded numeral consists of digits of ASCII. -/
theorem exists_isDigit_of_mem_padded {width n : Nat} {c : CodePoint} (h : c ∈ padded width n) :
    ∃ d : Char, d.isDigit = true ∧ c = CodePoint.ofChar d := by
  rcases List.mem_append.mp h with h | h
  · exact ⟨'0', by decide, List.eq_of_mem_replicate h⟩
  · obtain ⟨d, hd, rfl⟩ := List.mem_map.mp h
    exact ⟨d, isDigit_of_mem_toDigits hd, rfl⟩

/-- Leading zeros do not count. -/
theorem digitsValue_padded (width n : Nat) : digitsValue (padded width n) = n := by
  have hzero : CodePoint.digit? '0' = some 0 := CodePoint.digit?_ofChar (by decide)
  have hzeros : ∀ k, (List.replicate k (CodePoint.ofChar '0')).foldl
      (fun value c => 10 * value + c.digit?.getD 0) 0 = 0 := by
    intro k
    induction k with
    | zero => rfl
    | succ k ih => rw [List.replicate_succ, List.foldl_cons, hzero]; exact ih
  rw [digitsValue, padded, List.foldl_append, hzeros]
  exact digitsValue_natural n

end Text

namespace Text

/-- A field of fixed width is read back. -/
theorem takeDigits?_padded {width n : Nat} (hw : 0 < width) (h : n < 10 ^ width) (rest : Text) :
    takeDigits? width (padded width n ++ rest) = some (n, rest) := by
  have hlength := length_padded hw h
  have hdigits : (padded width n).all (·.asciiDigit?.isSome) = true := by
    rw [List.all_eq_true]
    intro c hc
    obtain ⟨d, hd, rfl⟩ := exists_isDigit_of_mem_padded hc
    exact CodePoint.asciiDigit?_ofChar hd
  rw [takeDigits?, List.take_left' hlength, List.drop_left' hlength, digitsValue_padded]
  exact if_pos ⟨hlength, hdigits⟩

theorem exists_padded_eq_cons (width n : Nat) :
    ∃ (d : Char) (digits : Text), d.isDigit = true ∧
      padded width n = CodePoint.ofChar d :: digits := by
  have hne : padded width n ≠ [] := by simp [padded, natural, Nat.toDigits_ne_nil]
  obtain ⟨c, digits, hcons⟩ := List.exists_cons_of_ne_nil hne
  obtain ⟨d, hd, rfl⟩ := exists_isDigit_of_mem_padded (hcons ▸ List.mem_cons_self)
  exact ⟨d, digits, hd, hcons⟩

/-- A field does not begin with a mark. -/
theorem head?_padded_ne {mark : Char} (hmark : mark.isDigit = false) (width n : Nat) (rest : Text) :
    (padded width n ++ rest).head? ≠ some (CodePoint.ofChar mark) := by
  obtain ⟨d, digits, hd, hcons⟩ := exists_padded_eq_cons width n
  rw [hcons]
  exact fun h => CodePoint.ofChar_ne_of_isDigit hd hmark (Option.some.inj h)

theorem takeMark?_padded {mark : Char} (hmark : mark.isDigit = false) (width n : Nat)
    (rest : Text) : takeMark? mark (padded width n ++ rest) = none := by
  have hhead := head?_padded_ne hmark width n rest
  cases h : padded width n ++ rest with
  | nil => rfl
  | cons c cs =>
    rw [h] at hhead
    exact if_neg fun hc => hhead (congrArg some hc)

theorem takeMark?_cons (mark : CodePoint) (rest : Text) :
    takeMark? mark (mark :: rest) = some rest :=
  if_pos rfl

end Text

/-! ## Dates -/

namespace Date

theorem month_le (d : Date) : d.month ≤ 12 := by
  by_contra h
  have hday := d.one_le_day.trans d.day_le
  have hnone : (monthLengths d.year)[d.month - 1]? = none :=
    List.getElem?_eq_none (by simp [monthLengths]; omega)
  rw [daysInMonth, hnone] at hday
  split at hday <;> simp at hday

theorem day_lt (d : Date) : d.day < 10 ^ 2 := by
  have hlengths : ∀ n ∈ monthLengths d.year, n < 10 ^ 2 := by
    unfold monthLengths
    split
    · decide
    · decide
  refine d.day_le.trans_lt ?_
  rw [daysInMonth]
  split
  · decide
  · cases h : (monthLengths d.year)[d.month - 1]? with
    | none => decide
    | some n => exact hlengths n (List.mem_of_getElem? h)

theorem text_eq (d : Date) :
    d.text = Text.padded 4 d.year ++ CodePoint.ofChar '-' :: (Text.padded 2 d.month ++
      CodePoint.ofChar '-' :: (Text.padded 2 d.day ++ [])) := by
  simp [text, Text.ofString]

end Date

theorem Text.readDate?_text (d : Date) : readDate? d.text = some d := by
  have hyear : d.year < 10 ^ 4 := by
    have := d.year_le
    omega
  have hmonth : d.month < 10 ^ 2 := by
    have := d.month_le
    omega
  simp only [d.text_eq, readDate?, takeDigits?_padded (Nat.succ_pos 3) hyear, Option.bind_eq_bind,
    Option.bind_some, List.head?_cons, if_true, List.drop_one, List.tail_cons,
    takeMark?_padded (show Char.isDigit 'W' = false by decide), takeMark?_cons,
    takeDigits?_padded (Nat.succ_pos 1) hmonth, takeDigits?_padded (Nat.succ_pos 1) d.day_lt,
    Date.ofNumbers?_self]

/-! ## Times -/

namespace Text

theorem fieldEnd?_colon (width n : Nat) (rest : Text) :
    fieldEnd? true (CodePoint.ofChar ':' :: (padded width n ++ rest)) =
      some (.more (padded width n ++ rest)) := by
  obtain ⟨d, digits, _, hcons⟩ := exists_padded_eq_cons width n
  rw [hcons]
  simp [fieldEnd?]

theorem fieldEnd?_point (colons : Bool) (width n : Nat) :
    fieldEnd? colons (CodePoint.ofChar '.' :: padded width n) =
      some (.decimals (padded width n)) := by
  have hcolon : CodePoint.ofChar '.' ≠ CodePoint.ofChar ':' := by decide
  obtain ⟨d, digits, _, hcons⟩ := exists_padded_eq_cons width n
  rw [hcons]
  simp [fieldEnd?, hcolon]

/-- Six decimals are microseconds. -/
theorem readDecimals?_padded {n : Nat} (h : n < 10 ^ 6) :
    readDecimals? (padded 6 n) = some (n, []) := by
  have hlength : (padded 6 n).length = 6 := length_padded (by decide) h
  have htake := takeDigits?_padded (by decide) h []
  rw [List.append_nil] at htake
  simp [readDecimals?, hlength, htake, tenTo]

theorem fractionText_of_ne {micro : Nat} (h : micro ≠ 0) :
    fractionText micro = CodePoint.ofChar '.' :: padded 6 micro :=
  if_neg h

variable {hours minutes seconds micros : Nat}

/-- Hours and minutes are read back. -/
theorem readFields?_minutes (hh : hours < 10 ^ 2) (hm : minutes < 10 ^ 2) :
    readFields? (padded 2 hours ++ CodePoint.ofChar ':' :: (padded 2 minutes ++ [])) =
      some { hours, minutes } := by
  simp only [readFields?, takeDigits?_padded (Nat.succ_pos 1) hh, Option.bind_eq_bind,
    Option.bind_some, List.head?_cons, decide_true, fieldEnd?_colon,
    takeDigits?_padded (Nat.succ_pos 1) hm]
  rfl

/-- Hours, minutes and seconds are read back, with microseconds if there are any. -/
theorem readFields?_seconds (hh : hours < 10 ^ 2) (hm : minutes < 10 ^ 2) (hs : seconds < 10 ^ 2)
    (hmicros : micros < 10 ^ 6) :
    readFields? (padded 2 hours ++ CodePoint.ofChar ':' :: (padded 2 minutes ++
        CodePoint.ofChar ':' :: (padded 2 seconds ++ fractionText micros))) =
      some { hours, minutes, seconds, micros } := by
  simp only [readFields?, takeDigits?_padded (Nat.succ_pos 1) hh, Option.bind_eq_bind,
    Option.bind_some, List.head?_cons, decide_true, fieldEnd?_colon,
    takeDigits?_padded (Nat.succ_pos 1) hm, takeDigits?_padded (Nat.succ_pos 1) hs]
  by_cases h : micros = 0
  · rw [h]
    rfl
  · rw [fractionText_of_ne h, fieldEnd?_point]
    show (readDecimals? (padded 6 micros)).bind _ = _
    rw [readDecimals?_padded hmicros]
    rfl

end Text

theorem Clock.text_eq (c : Clock) (behind : Text) :
    c.text ++ behind = Text.padded 2 c.hour ++ CodePoint.ofChar ':' :: (Text.padded 2 c.minute ++
      CodePoint.ofChar ':' :: (Text.padded 2 c.second ++ behind)) := by
  simp [text, Text.ofString]

theorem Text.readFields?_clock (c : Clock) :
    readFields? (c.text ++ fractionText c.micro) =
      some { hours := c.hour, minutes := c.minute, seconds := c.second, micros := c.micro } := by
  have := c.hour_lt
  have := c.minute_lt
  have := c.second_lt
  rw [c.text_eq, readFields?_seconds (by omega) (by omega) (by omega) c.micro_lt]

/-! ## Offsets -/

namespace Offset

/-- An offset is read as it is written if it is none, or no less than a second. -/
def IsLegible (o : Offset) : Prop :=
  o.micros = 0 ∨ 1000000 ≤ o.micros.natAbs

theorem isLegible_zero : zero.IsLegible :=
  .inl rfl

/-- What an offset is when it is written and read: less than a second counts for nothing. -/
def reread (o : Offset) : Offset :=
  if o.micros.natAbs < 1000000 then zero else o

theorem reread_eq_self_iff {o : Offset} : o.reread = o ↔ o.IsLegible := by
  obtain ⟨n, hn⟩ := o
  unfold reread IsLegible
  split
  · rename_i hlt
    rw [zero, mk.injEq, eq_comm, or_iff_left (Nat.not_le_of_lt hlt)]
  · rename_i hge
    exact iff_of_true rfl (.inr (Nat.le_of_not_lt hge))

/-- The sign of an offset. -/
def sign (o : Offset) : Char :=
  if o.micros < 0 then '-' else '+'

/-- What stands behind the sign of an offset. -/
def fieldsText (o : Offset) : Text :=
  let n := o.micros.natAbs
  Text.padded 2 (n / 1000000 / 3600) ++ CodePoint.ofChar ':' ::
    (Text.padded 2 (n / 1000000 / 60 % 60) ++
      if n % 60000000 = 0 then []
      else CodePoint.ofChar ':' :: (Text.padded 2 (n / 1000000 % 60) ++ fractionText (n % 1000000)))

theorem text_eq (o : Offset) : o.text = CodePoint.ofChar o.sign :: o.fieldsText := by
  have hsign : (if o.micros < 0 then Text.ofString "-" else Text.ofString "+") =
      [CodePoint.ofChar o.sign] := by
    unfold sign
    split
    · rfl
    · rfl
  rw [text, hsign, fieldsText]
  by_cases h : o.micros.natAbs % 60000000 = 0
  · simp [h, Text.ofString]
  · simp [h, Text.ofString]

theorem ofMicros?_self (o : Offset) : ofMicros? o.micros = some o :=
  dif_pos o.natAbs_lt

/-- The fields of an offset denote it again, if they amount to a second. -/
theorem offsetOf?_eq {o : Offset} {hours minutes seconds micros : Nat}
    (hn : ((hours * 60 + minutes) * 60 + seconds) * 1000000 + micros = o.micros.natAbs)
    (hmicros : micros < 10 ^ 6) :
    Text.offsetOf? (CodePoint.ofChar o.sign = '-') { hours, minutes, seconds, micros } =
      some o.reread := by
  unfold Text.offsetOf? reread
  dsimp only
  rw [hn]
  by_cases hzero : (hours * 60 + minutes) * 60 + seconds = 0
  · have hlt : o.micros.natAbs < 1000000 := by omega
    rw [if_pos hzero, if_pos hlt, Int.neg_zero, ite_self]
    rfl
  · have hge : ¬ o.micros.natAbs < 1000000 := by omega
    rw [if_neg hzero, if_neg hge]
    refine Eq.trans (congrArg ofMicros? ?_) o.ofMicros?_self
    unfold sign
    split
    · rename_i hneg
      rw [if_pos (by decide)]
      omega
    · rename_i hneg
      rw [if_neg (by decide)]
      omega

end Offset

/-- An offset is read back, unless it is less than a second. -/
theorem Text.readOffset?_text (o : Offset) :
    readOffset? (CodePoint.ofChar o.sign) o.fieldsText = some o.reread := by
  have hlt : o.micros.natAbs < dayMicros := o.natAbs_lt
  have hz : ¬ CodePoint.ofChar o.sign = CodePoint.ofChar 'Z' := by
    unfold Offset.sign
    split
    · decide
    · decide
  rw [readOffset?, if_neg hz, Offset.fieldsText]
  by_cases hwhole : o.micros.natAbs % 60000000 = 0
  · rw [if_pos hwhole, readFields?_minutes (by unfold dayMicros at hlt; omega) (by omega)]
    show offsetOf? (CodePoint.ofChar o.sign = '-') _ = some o.reread
    refine Offset.offsetOf?_eq ?_ (by decide)
    omega
  · rw [if_neg hwhole, readFields?_seconds (by unfold dayMicros at hlt; omega) (by omega)
      (by omega) (by omega)]
    show offsetOf? (CodePoint.ofChar o.sign = '-') _ = some o.reread
    refine Offset.offsetOf?_eq ?_ (by omega)
    omega

/-! ## Timestamps -/

/-- A sign of ASCII other than the letter that stands for universal time. -/
def CodePoint.IsPlain (c : CodePoint) : Prop :=
  c.toNat < 0x80 ∧ c ≠ 'Z'

theorem CodePoint.isPlain_ofChar_of_isDigit {d : Char} (h : d.isDigit = true) :
    (ofChar d).IsPlain := by
  have hd : 48 ≤ d.toNat ∧ d.toNat ≤ 57 := Char.isDigit_iff_toNat.mp h
  exact ⟨show d.toNat < 0x80 by omega, ofChar_ne_of_isDigit h (by decide)⟩

theorem CodePoint.IsPlain.isSurrogate_eq_false {c : CodePoint} (h : c.IsPlain) :
    c.isSurrogate = false := by
  have := h.1
  simp only [isSurrogate, Bool.and_eq_false_iff, decide_eq_false_iff_not]
  omega

/-! ### The signs of a timestamp -/

section Signs

variable {P : CodePoint → Prop} (hdigit : ∀ d : Char, d.isDigit = true → P (CodePoint.ofChar d))

include hdigit

theorem Text.forall_mem_padded (width n : Nat) : ∀ c ∈ padded width n, P c := by
  intro c hc
  obtain ⟨d, hd, rfl⟩ := exists_isDigit_of_mem_padded hc
  exact hdigit d hd

theorem Text.forall_mem_fractionText (hpoint : P '.') (micro : Nat) :
    ∀ c ∈ fractionText micro, P c := by
  by_cases h : micro = 0
  · rw [h]
    exact fun c hc => by cases hc
  · rw [fractionText_of_ne h]
    exact List.forall_mem_cons.mpr ⟨hpoint, forall_mem_padded hdigit 6 micro⟩

theorem Clock.forall_mem_text (hcolon : P ':') (c : Clock) : ∀ x ∈ c.text, P x := by
  have hpadded := Text.forall_mem_padded hdigit 2
  rw [← List.append_nil c.text, c.text_eq]
  simp only [List.forall_mem_append, List.forall_mem_cons]
  exact ⟨hpadded _, hcolon, hpadded _, hcolon, hpadded _, List.forall_mem_nil P⟩

theorem Date.forall_mem_text (hhyphen : P '-') (d : Date) : ∀ x ∈ d.text, P x := by
  have hpadded := Text.forall_mem_padded hdigit
  rw [d.text_eq]
  simp only [List.forall_mem_append, List.forall_mem_cons]
  exact ⟨hpadded _ _, hhyphen, hpadded _ _, hhyphen, hpadded _ _, List.forall_mem_nil P⟩

theorem Offset.forall_mem_text (hmarks : ∀ m ∈ ['-', '+', ':', '.'], P (CodePoint.ofChar m))
    (o : Offset) : ∀ x ∈ o.text, P x := by
  have hpadded := Text.forall_mem_padded hdigit 2
  have hcolon := hmarks ':' (by decide)
  rw [o.text_eq, List.forall_mem_cons, fieldsText]
  refine ⟨hmarks o.sign ?_, ?_⟩
  · unfold sign
    split
    · decide
    · decide
  · simp only [List.forall_mem_append, List.forall_mem_cons]
    refine ⟨hpadded _, hcolon, hpadded _, ?_⟩
    split
    · exact List.forall_mem_nil P
    · rw [List.forall_mem_cons, List.forall_mem_append]
      exact ⟨hcolon, hpadded _, Text.forall_mem_fractionText hdigit (hmarks '.' (by decide)) _⟩

theorem Timestamp.forall_mem_text
    (hmarks : ∀ m ∈ ['-', '+', ':', '.', 'T'], P (CodePoint.ofChar m)) (t : Timestamp) :
    ∀ x ∈ t.text, P x := by
  rw [text]
  simp only [List.forall_mem_append]
  refine ⟨⟨⟨⟨t.date.forall_mem_text hdigit (hmarks '-' (by decide)), ?_⟩,
    t.clock.forall_mem_text hdigit (hmarks ':' (by decide))⟩,
    Text.forall_mem_fractionText hdigit (hmarks '.' (by decide)) _⟩, ?_⟩
  · exact List.forall_mem_singleton.mpr (hmarks 'T' (by decide))
  · cases t.offset with
    | none => exact List.forall_mem_nil P
    | some o =>
      refine o.forall_mem_text hdigit fun m hm => ?_
      exact hmarks m (List.mem_append_left ['T'] hm)

end Signs

theorem Timestamp.isPlain_of_mem_text (t : Timestamp) : ∀ c ∈ t.text, c.IsPlain := by
  refine t.forall_mem_text (fun _ => CodePoint.isPlain_ofChar_of_isDigit) fun m hm => ?_
  simp only [List.mem_cons, List.not_mem_nil, or_false] at hm
  rcases hm with rfl | rfl | rfl | rfl | rfl <;> exact ⟨by decide, by decide⟩

theorem Text.isOffsetMark_eq_false_of_mem_clock (c : Clock) :
    ∀ x ∈ c.text ++ fractionText c.micro, isOffsetMark x = false := by
  have hdigit (d : Char) (hd : d.isDigit = true) : isOffsetMark (CodePoint.ofChar d) = false := by
    simp [isOffsetMark, CodePoint.ofChar_ne_of_isDigit hd]
  rw [List.forall_mem_append]
  exact ⟨c.forall_mem_text (P := (isOffsetMark · = false)) hdigit rfl,
    forall_mem_fractionText (P := (isOffsetMark · = false)) hdigit rfl _⟩

/-- The time of a timestamp is read back, with its offset if there is one. -/
theorem Text.readTime?_text (c : Clock) (offset : Option Offset) :
    readTime? (c.text ++ fractionText c.micro ++ (offset.map Offset.text).getD []) =
      some (c, offset.map Offset.reread) := by
  have hmarks : ∀ x ∈ c.text ++ fractionText c.micro, (!isOffsetMark x) = true := fun x hx => by
    rw [isOffsetMark_eq_false_of_mem_clock c x hx]
    rfl
  cases offset with
  | none =>
    rw [Option.map_none, Option.getD_none, List.append_nil, readTime?,
      List.takeWhile_eq_self_iff.mpr hmarks, List.dropWhile_eq_nil_iff.mpr hmarks,
      readFields?_clock]
    simp [c.ofNumbers?_self, isUsedUp]
  | some o =>
    have hsign : (!isOffsetMark (CodePoint.ofChar o.sign)) = false := by
      unfold Offset.sign
      split
      · rfl
      · rfl
    rw [Option.map_some, Option.getD_some, Offset.text_eq, readTime?,
      List.takeWhile_append_of_pos hmarks, List.dropWhile_append_of_pos hmarks,
      List.takeWhile_cons_of_neg (by simp [hsign]), List.dropWhile_cons_of_neg (by simp [hsign]),
      List.append_nil, readFields?_clock]
    simp [c.ofNumbers?_self, readOffset?_text o]

theorem Date.length_text (d : Date) : d.text.length = 10 := by
  have hyear : d.year < 10 ^ 4 := by
    have := d.year_le
    omega
  have hmonth : d.month < 10 ^ 2 := by
    have := d.month_le
    omega
  simp [d.text_eq, Text.length_padded (Nat.succ_pos 3) hyear,
    Text.length_padded (Nat.succ_pos 1) hmonth, Text.length_padded (Nat.succ_pos 1) d.day_lt]

/-- The date of a timestamp takes up ten code points. -/
theorem Text.dateLength_text (d : Date) (behind : Text) : dateLength (d.text ++ behind) = 10 := by
  have hyear : (padded 4 d.year).length = 4 := length_padded (by decide) (by
    have := d.year_le
    omega)
  have hlength : (d.text ++ behind).length ≠ 7 := by
    rw [List.length_append, d.length_text]
    omega
  have hhyphen : (d.text ++ behind)[4]? = some (CodePoint.ofChar '-') := by
    rw [d.text_eq, List.append_assoc, List.getElem?_append_right hyear.le, hyear]
    rfl
  have hweek : (d.text ++ behind)[5]? ≠ some (CodePoint.ofChar 'W') := by
    rw [d.text_eq, List.append_assoc, List.getElem?_append_right (by omega), hyear,
      List.cons_append, List.getElem?_cons_succ, List.append_assoc, ← List.head?_eq_getElem?]
    exact head?_padded_ne (by decide) _ _ _
  rw [dateLength, if_neg hlength, if_pos hhyphen, if_neg hweek]

theorem Text.withPlainSeparator_of_isPlain {t : Text} (h : ∀ c ∈ t, c.IsPlain) :
    t.withPlainSeparator = t := by
  have hnone : ∀ n : Nat, t[n]?.any CodePoint.isSurrogate = false := by
    intro n
    cases hc : t[n]? with
    | none => rfl
    | some c => exact (h c (List.mem_of_getElem? hc)).isSurrogate_eq_false
  simp [withPlainSeparator, hnone]

theorem Text.encodable_of_isPlain {t : Text} (h : ∀ c ∈ t, c.IsPlain) : t.encodable = true := by
  rw [encodable, List.all_eq_true]
  intro c hc
  rw [(h c hc).isSurrogate_eq_false]
  rfl

/-- What a timestamp is when it is written and read. -/
def Timestamp.reread (t : Timestamp) : Timestamp :=
  { t with offset := t.offset.map Offset.reread }

theorem Timestamp.reread_eq_self_iff {t : Timestamp} :
    t.reread = t ↔ ∀ o ∈ t.offset, o.IsLegible := by
  obtain ⟨date, clock, offset⟩ := t
  cases offset with
  | none => exact iff_of_true rfl nofun
  | some o => simp [reread, Offset.reread_eq_self_iff]

theorem Text.readTimestamp?_text (t : Timestamp) : readTimestamp? t.text = some t.reread := by
  have htext : t.text = t.date.text ++ CodePoint.ofChar 'T' :: (t.clock.text ++
      fractionText t.clock.micro ++ (t.offset.map Offset.text).getD []) := by
    simp [Timestamp.text, ofString]
  have hplain := t.isPlain_of_mem_text
  have hdate : dateLength t.text = 10 := by
    rw [htext, dateLength_text]
  rw [readTimestamp?, withPlainSeparator_of_isPlain hplain, if_pos (encodable_of_isPlain hplain),
    hdate, htext, List.take_left' t.date.length_text, List.drop_left' t.date.length_text,
    readDate?_text]
  simp only [Option.bind_eq_bind, Option.bind_some]
  rw [readTime?_text]
  rfl

/-- What was written is read as a timestamp with the same date and time of day. -/
theorem Timestamp.ofText?_text_eq (t : Timestamp) : ofText? t.text = some t.reread := by
  have hlast : t.text.getLast? ≠ some (CodePoint.ofChar 'Z') := fun hz =>
    (t.isPlain_of_mem_text _ (List.mem_of_getLast? hz)).2 rfl
  rw [ofText?, if_neg hlast]
  exact Text.readTimestamp?_text t

/-- **A timestamp is read back**, unless its offset is less than a second without being none. -/
theorem Timestamp.ofText?_text {t : Timestamp} (h : ∀ o ∈ t.offset, o.IsLegible) :
    ofText? t.text = some t := by
  rw [ofText?_text_eq, reread_eq_self_iff.mpr h]

end DiceBot
