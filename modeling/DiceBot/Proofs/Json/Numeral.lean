import DiceBot.Json.Printer
import DiceBot.Json.Reader
import DiceBot.Proofs.Calendar.RoundTrip

/-!
# Numbers in JSON read back

A number is written as an integer, or with decimals or an exponent, and where it ends nothing
follows that it would take in. Then the integer is read as itself, and what is no integer as the
double nearest to the decimal that was written.

## Main definitions

* `Json.IsWhole`, `Json.EndsNumber`: the front of a number, and what may stand behind a number
* `Json.FloatParts`: the parts of a number that is no integer
* `Decimal.parts`: the parts that a decimal is laid out in
* `Json.rereadFloat`: the double that is read where a double was written

## Main results

* `Json.readPlain_integer`, `Json.readPlain_floatText`: numbers are read back
-/

namespace DiceBot

/-! ## Numerals -/

namespace Text

theorem asciiDigit?_of_mem_natural {n : Nat} {c : CodePoint} (h : c ∈ natural n) :
    c.asciiDigit?.isSome = true := by
  obtain ⟨d, hd, rfl⟩ := List.mem_map.mp h
  exact CodePoint.asciiDigit?_ofChar (isDigit_of_mem_toDigits hd)

theorem natural_ne_nil (n : Nat) : natural n ≠ [] :=
  (isDigits_natural n).1

/-- Only the numeral of zero begins with a zero. -/
theorem natural_of_head?_eq_zero {n : Nat}
    (h : (natural n).head? = some (CodePoint.ofChar '0')) :
    natural n = [CodePoint.ofChar '0'] := by
  cases hn : natural n with
  | nil => exact absurd hn (natural_ne_nil n)
  | cons c rest =>
    rw [hn] at h
    cases h
    by_contra hrest
    have hpos : 0 < rest.length := by
      apply List.length_pos_of_ne_nil
      rintro rfl
      exact hrest rfl
    have hvalue : digitsValue rest = n := by
      rw [← digitsValue_natural n, hn]
      rfl
    have hlt : n < tenTo rest.length := hvalue ▸ digitsValue_lt_tenTo le_rfl
    have hle := (length_natural_le_iff hpos).mpr hlt
    rw [hn, List.length_cons] at hle
    omega

end Text

namespace Json

/-! ## The parts of a number -/

/-- The front of a number: digits of ASCII, the first of which is no zero unless it stands alone. -/
structure IsWhole (t : Text) : Prop where
  ne_nil : t ≠ []
  digits : ∀ c ∈ t, c.asciiDigit?.isSome = true
  zero : t.head? = some (CodePoint.ofChar '0') → t = [CodePoint.ofChar '0']

/-- What may stand behind a number: nothing that the number would take in. -/
def EndsNumber (rest : Text) : Prop :=
  ∀ c ∈ rest.head?, c.asciiDigit?.isSome = false ∧ c ≠ '.' ∧ c ≠ 'e' ∧ c ≠ 'E'

theorem isWhole_natural (n : Nat) : IsWhole (Text.natural n) where
  ne_nil := Text.natural_ne_nil n
  digits _ := Text.asciiDigit?_of_mem_natural
  zero := Text.natural_of_head?_eq_zero

/-- A whole part may end early. -/
theorem IsWhole.take {whole : Text} (h : IsWhole whole) {n : Nat} (hn : 0 < n) :
    IsWhole (whole.take n) where
  ne_nil := by
    rw [Ne, List.take_eq_nil_iff, not_or]
    exact ⟨hn.ne', h.ne_nil⟩
  digits c hc := h.digits c (List.mem_of_mem_take hc)
  zero hzero := by
    rw [List.head?_take, if_neg hn.ne'] at hzero
    rw [h.zero hzero]
    exact List.take_of_length_le hn

/-- The parts of a number that is no integer. -/
structure FloatParts where
  /-- The digits before the point. -/
  whole : Text
  /-- The digits behind the point, if there is one. -/
  decimals : Text
  /-- The sign and the digits of the exponent, if there is one. -/
  exponent : Option (Bool × Text) := none

namespace FloatParts

/-- The decimals with the point. -/
def decimalsText (decimals : Text) : Text :=
  if decimals = [] then [] else CodePoint.ofChar '.' :: decimals

/-- The exponent with its mark and its sign. -/
def exponentText : Option (Bool × Text) → Text
  | none => []
  | some (negative, digits) =>
    CodePoint.ofChar 'e' :: (if negative then CodePoint.ofChar '-' else CodePoint.ofChar '+')
      :: digits

/-- The text of the parts. -/
def text (p : FloatParts) : Text :=
  p.whole ++ (decimalsText p.decimals ++ exponentText p.exponent)

/-- The power of ten that an exponent denotes. -/
def power : Option (Bool × Text) → Int
  | none => 0
  | some (negative, digits) =>
    let n : Int := digits.digitsValue
    if negative then -n else n

/-- The decimal that the parts denote. -/
def decimal (p : FloatParts) : Decimal :=
  ⟨Text.digitsValue (p.whole ++ p.decimals), power p.exponent - p.decimals.length⟩

/-- The parts as they may be written; without decimals and exponent they would be an integer. -/
structure IsProper (p : FloatParts) : Prop where
  whole : IsWhole p.whole
  decimals : ∀ c ∈ p.decimals, c.asciiDigit?.isSome = true
  exponent : ∀ negative digits, p.exponent = some (negative, digits) →
    digits ≠ [] ∧ ∀ c ∈ digits, c.asciiDigit?.isSome = true
  notInteger : p.decimals ≠ [] ∨ p.exponent.isSome = true

end FloatParts

/-! ## Reading the parts -/

theorem takeAsciiDigits_append {digits rest : Text}
    (hdigits : ∀ c ∈ digits, c.asciiDigit?.isSome = true)
    (hrest : ∀ c ∈ rest.head?, c.asciiDigit?.isSome = false) :
    takeAsciiDigits (digits ++ rest) = (digits, rest) := by
  have hnone : rest.takeWhile (·.asciiDigit?.isSome) = [] ∧
      rest.dropWhile (·.asciiDigit?.isSome) = rest := by
    cases rest with
    | nil => exact ⟨rfl, rfl⟩
    | cons c rest =>
      have hc := hrest c rfl
      exact ⟨List.takeWhile_cons_of_neg (by simp [hc]), List.dropWhile_cons_of_neg (by simp [hc])⟩
  rw [takeAsciiDigits, List.takeWhile_append_of_pos hdigits, List.dropWhile_append_of_pos hdigits,
    hnone.1, hnone.2, List.append_nil]

theorem takeDecimals_of_head {rest : Text} (h : ∀ c ∈ rest.head?, c ≠ '.') :
    takeDecimals rest = ([], rest) := by
  cases rest with
  | nil => rfl
  | cons c rest =>
    have hc : c ≠ CodePoint.ofChar '.' := h c rfl
    simp [takeDecimals, hc]

theorem takeDecimals_append {decimals rest : Text} (hne : decimals ≠ [])
    (hdigits : ∀ c ∈ decimals, c.asciiDigit?.isSome = true)
    (hrest : ∀ c ∈ rest.head?, c.asciiDigit?.isSome = false) :
    takeDecimals (CodePoint.ofChar '.' :: (decimals ++ rest)) = (decimals, rest) := by
  simp [takeDecimals, takeAsciiDigits_append hdigits hrest, hne]

theorem takeExponent?_of_head {rest : Text} (h : ∀ c ∈ rest.head?, c ≠ 'e' ∧ c ≠ 'E') :
    takeExponent? rest = none := by
  cases rest with
  | nil => rfl
  | cons c rest =>
    obtain ⟨he, hE⟩ := h c rfl
    simp [takeExponent?, he, hE]

theorem takeExponent?_append {negative : Bool} {digits rest : Text} (hne : digits ≠ [])
    (hdigits : ∀ c ∈ digits, c.asciiDigit?.isSome = true)
    (hrest : ∀ c ∈ rest.head?, c.asciiDigit?.isSome = false) :
    takeExponent? (FloatParts.exponentText (some (negative, digits)) ++ rest) =
      some (FloatParts.power (some (negative, digits)), rest) := by
  have hplus : CodePoint.ofChar '+' ≠ CodePoint.ofChar '-' := by decide
  cases negative with
  | true =>
    simp [FloatParts.exponentText, FloatParts.power, takeExponent?,
      takeAsciiDigits_append hdigits hrest, hne]
  | false =>
    simp [FloatParts.exponentText, FloatParts.power, takeExponent?, hplus,
      takeAsciiDigits_append hdigits hrest, hne]

/-- The digits of a whole part are taken together, whether they begin with a zero or not. -/
theorem IsWhole.ite_head? {whole rest : Text} (h : IsWhole whole) :
    (if whole.head? = some (CodePoint.ofChar '0') then (whole.take 1, whole.drop 1 ++ rest)
      else (whole, rest)) = (whole, rest) := by
  split
  · rename_i hzero
    rw [h.zero hzero]
    rfl
  · rfl

theorem readMagnitude_whole (negative : Bool) {whole rest : Text} (h : IsWhole whole)
    (hlength : whole.length ≤ maxNumeralDigits) (hrest : EndsNumber rest) :
    readMagnitude negative (whole ++ rest) =
      .ok (.integer (if negative then -(whole.digitsValue : Int) else whole.digitsValue), rest) := by
  simp only [readMagnitude, takeAsciiDigits_append h.digits fun c hc => (hrest c hc).1,
    h.ite_head?, h.ne_nil, takeDecimals_of_head fun c hc => (hrest c hc).2.1,
    takeExponent?_of_head fun c hc => (hrest c hc).2.2, hlength, if_true, if_false,
    Option.isNone_none, and_self]

theorem FloatParts.IsProper.readMagnitude_text {p : FloatParts} {rest : Text} (h : p.IsProper)
    (negative : Bool) (hrest : EndsNumber rest) :
    readMagnitude negative (p.text ++ rest) = .ok (.float (p.decimal.toFloat negative), rest) := by
  obtain ⟨whole, decimals, exponent⟩ := p
  obtain ⟨hwhole, hdecimals, hexponent, hnot⟩ := h
  dsimp only at hwhole hdecimals hexponent hnot
  have hmark : ∀ c ∈ (exponentText exponent ++ rest).head?, c.asciiDigit?.isSome = false := by
    rcases exponent with _ | ⟨sign, digits⟩
    · exact fun c hc => (hrest c hc).1
    · rintro c ⟨⟩
      rfl
  have hpoint : ∀ c ∈ (exponentText exponent ++ rest).head?, c ≠ '.' := by
    rcases exponent with _ | ⟨sign, digits⟩
    · exact fun c hc => (hrest c hc).2.1
    · rintro c ⟨⟩
      decide
  have hfirst : ∀ c ∈ (decimalsText decimals ++ (exponentText exponent ++ rest)).head?,
      c.asciiDigit?.isSome = false := by
    unfold decimalsText
    split
    · exact hmark
    · rintro c ⟨⟩
      rfl
  have htakeDecimals : takeDecimals (decimalsText decimals ++ (exponentText exponent ++ rest)) =
      (decimals, exponentText exponent ++ rest) := by
    unfold decimalsText
    split
    · rename_i hnil
      rw [hnil]
      exact takeDecimals_of_head hpoint
    · rename_i hne
      exact takeDecimals_append hne hdecimals hmark
  have htext : text ⟨whole, decimals, exponent⟩ ++ rest =
      whole ++ (decimalsText decimals ++ (exponentText exponent ++ rest)) := by
    simp [text]
  rw [htext]
  simp only [readMagnitude, takeAsciiDigits_append hwhole.digits hfirst, hwhole.ite_head?,
    hwhole.ne_nil, htakeDecimals, if_false]
  rcases exponent with _ | ⟨sign, digits⟩
  · have hne : decimals ≠ [] := hnot.resolve_right (by simp)
    have hnone : takeExponent? rest = none :=
      takeExponent?_of_head fun c hc => (hrest c hc).2.2
    simp [hnone, hne, decimal, power, exponentText]
  · obtain ⟨hne, hdigits⟩ := hexponent sign digits rfl
    simp [takeExponent?_append hne hdigits fun c hc => (hrest c hc).1, decimal]

/-! ## Numbers behind their sign -/

theorem ofChar_ne_of_asciiDigit? {c : CodePoint} {mark : Char} (h : c.asciiDigit?.isSome = true)
    (hmark : (CodePoint.ofChar mark).asciiDigit?.isSome = false) : CodePoint.ofChar mark ≠ c := by
  rintro rfl
  rw [h] at hmark
  cases hmark

/-- No word begins with a digit. -/
theorem readPlain_digit {c : CodePoint} {t : Text} (h : c.asciiDigit?.isSome = true) :
    readPlain (c :: t) = readMagnitude false (c :: t) := by
  have hne : ∀ mark : Char, (CodePoint.ofChar mark).asciiDigit?.isSome = false →
      CodePoint.ofChar mark ≠ c := fun _ => ofChar_ne_of_asciiDigit? h
  have hminus := hne '-' (by decide)
  simp [readPlain, words, Text.ofString, Text.dropStart?, hne 'n' (by decide), hne 't' (by decide),
    hne 'f' (by decide), hne 'N' (by decide), hne 'I' (by decide), hminus, hminus.symm]

/-- No word begins with a hyphen and a digit. -/
theorem readPlain_minus {c : CodePoint} {t : Text} (h : c.asciiDigit?.isSome = true) :
    readPlain (CodePoint.ofChar '-' :: c :: t) = readMagnitude true (c :: t) := by
  have hI : CodePoint.ofChar 'I' ≠ c := ofChar_ne_of_asciiDigit? h (by decide)
  have hminus : ∀ mark : Char, mark ≠ '-' → CodePoint.ofChar mark ≠ CodePoint.ofChar '-' :=
    fun mark hmark he => hmark (CodePoint.ofChar_injective he)
  simp [readPlain, words, Text.ofString, Text.dropStart?, hminus 'n' (by decide),
    hminus 't' (by decide), hminus 'f' (by decide), hminus 'N' (by decide), hminus 'I' (by decide),
    hI]

theorem IsWhole.readPlain_append {whole : Text} (h : IsWhole whole) (rest : Text) :
    readPlain (whole ++ rest) = readMagnitude false (whole ++ rest) ∧
      readPlain (CodePoint.ofChar '-' :: (whole ++ rest)) = readMagnitude true (whole ++ rest) := by
  obtain ⟨c, digits, rfl⟩ := List.exists_cons_of_ne_nil h.ne_nil
  have hc := h.digits c List.mem_cons_self
  exact ⟨readPlain_digit hc, readPlain_minus hc⟩

/-- An integer within the limit is read back. -/
theorem readPlain_integer {n : Int} {rest : Text} (h : n.natAbs < tenTo maxNumeralDigits)
    (hrest : EndsNumber rest) : readPlain (Text.integer n ++ rest) = .ok (.integer n, rest) := by
  have hwhole := isWhole_natural n.natAbs
  have hlength := (Text.length_natural_le_iff (by decide)).mpr h
  have hread (negative : Bool) := readMagnitude_whole negative hwhole hlength hrest
  rw [Text.digitsValue_natural] at hread
  cases n with
  | ofNat n => exact (hwhole.readPlain_append rest).1.trans (hread false)
  | negSucc n => exact (hwhole.readPlain_append rest).2.trans (hread true)

/-! ## Doubles -/

end Json

namespace Decimal

/-- The parts in which a decimal is laid out. -/
def parts (d : Decimal) : Json.FloatParts :=
  let digits := Text.natural d.digits
  let point : Int := digits.length + d.exponent
  let zeros (n : Int) : Text := List.replicate n.toNat (CodePoint.ofChar '0')
  if -4 < point ∧ point ≤ 16 then
    if point ≤ 0 then { whole := "0", decimals := zeros (-point) ++ digits }
    else if digits.length ≤ point then
      { whole := digits ++ zeros (point - digits.length), decimals := "0" }
    else { whole := digits.take point.toNat, decimals := digits.drop point.toNat }
  else
    { whole := digits.take 1
      decimals := digits.drop 1
      exponent := some (point - 1 < 0, Text.padded 2 (point - 1).natAbs) }

theorem exponent_eq (e : Int) :
    Text.exponent e = Json.FloatParts.exponentText (some (e < 0, Text.padded 2 e.natAbs)) := by
  have hpos := List.length_pos_of_ne_nil (Text.natural_ne_nil e.natAbs)
  simp only [Text.exponent, Json.FloatParts.exponentText, decide_eq_true_eq, Text.padded]
  congr 2
  split
  · have hone : (Text.natural e.natAbs).length = 1 := by omega
    rw [hone]
    rfl
  · have hzero : 2 - (Text.natural e.natAbs).length = 0 := by omega
    rw [hzero]
    rfl

theorem laidOut_eq (d : Decimal) : d.laidOut = d.parts.text := by
  have hpos := List.length_pos_of_ne_nil (Text.natural_ne_nil d.digits)
  simp only [laidOut, parts]
  split
  · split
    · simp [Json.FloatParts.text, Json.FloatParts.decimalsText, Json.FloatParts.exponentText,
        Text.natural_ne_nil, Text.ofString]
    · split
      · simp [Json.FloatParts.text, Json.FloatParts.decimalsText, Json.FloatParts.exponentText,
          Text.ofString]
      · rename_i hpoint
        have hne : ¬ (Text.natural d.digits).length ≤
            ((Text.natural d.digits).length + d.exponent).toNat := by omega
        simp [Json.FloatParts.text, Json.FloatParts.decimalsText, Json.FloatParts.exponentText,
          Text.ofString, hne]
  · rw [exponent_eq]
    have hone : (Text.natural d.digits).drop 1 = [] ↔ (Text.natural d.digits).length = 1 := by
      rw [List.drop_eq_nil_iff]
      omega
    simp only [Json.FloatParts.text, Json.FloatParts.decimalsText, hone, List.append_assoc]

theorem isWhole_append_zeros {n : Nat} {zeros : Text} (h : n ≠ 0 ∨ zeros = [])
    (hzeros : ∀ c ∈ zeros, c.asciiDigit?.isSome = true) :
    Json.IsWhole (Text.natural n ++ zeros) where
  ne_nil := by simp [Text.natural_ne_nil]
  digits := List.forall_mem_append.mpr ⟨(Json.isWhole_natural n).digits, hzeros⟩
  zero hzero := by
    rw [List.head?_append_of_ne_nil _ (Text.natural_ne_nil n)] at hzero
    have hnatural := Text.natural_of_head?_eq_zero hzero
    have hvalue := Text.digitsValue_natural n
    rw [hnatural] at hvalue
    rw [hnatural, h.resolve_left (not_not_intro hvalue.symm), List.append_nil]

/-- The parts of a decimal are proper unless it is a zero with zeros behind it. -/
theorem isProper_parts {d : Decimal} (h : d.digits ≠ 0 ∨ d.exponent = 0) : d.parts.IsProper := by
  have hwhole := Json.isWhole_natural d.digits
  have hpos := List.length_pos_of_ne_nil hwhole.ne_nil
  have hdrop (n : Nat) : ∀ c ∈ (Text.natural d.digits).drop n, c.asciiDigit?.isSome = true :=
    fun c hc => hwhole.digits c (List.mem_of_mem_drop hc)
  have hzeros (n : Nat) :
      ∀ c ∈ List.replicate n (CodePoint.ofChar '0'), c.asciiDigit?.isSome = true := by
    intro c hc
    rw [List.eq_of_mem_replicate hc]
    rfl
  unfold parts
  dsimp only
  split
  · split
    · refine ⟨Json.isWhole_natural 0, ?_, by simp, .inl (by simp [hwhole.ne_nil])⟩
      exact List.forall_mem_append.mpr ⟨hzeros _, hwhole.digits⟩
    · split
      · refine ⟨isWhole_append_zeros ?_ (hzeros _), hzeros 1, by simp, .inl (List.cons_ne_nil _ _)⟩
        refine h.imp_right fun hexponent => ?_
        simp [hexponent]
      · refine ⟨hwhole.take (by omega), hdrop _, by simp, .inl ?_⟩
        rw [Ne, List.drop_eq_nil_iff]
        omega
  · refine ⟨hwhole.take Nat.one_pos, hdrop 1, ?_, .inr rfl⟩
    rintro negative digits ⟨⟩
    refine ⟨by simp [Text.padded, Text.natural_ne_nil], fun c hc => ?_⟩
    obtain ⟨digit, hdigit, rfl⟩ := Text.exists_isDigit_of_mem_padded hc
    exact CodePoint.asciiDigit?_ofChar hdigit

theorem tenTo_pos (n : Nat) : 0 < tenTo n :=
  Nat.pow_pos (show 0 < 10 by decide)

theorem trimmed_digits_ne_zero {d : Decimal} (h : d.digits ≠ 0) : d.trimmed.digits ≠ 0 := by
  fun_induction trimmed d with
  | case1 d hd ih => exact ih (by dsimp only; omega)
  | case2 d hd => exact h

end Decimal

namespace Magnitude

/-- No decimal of zero lies among the numbers that round to a magnitude above zero. -/
theorem digits_ne_zero_of_readsBack {x : Magnitude} {d : Decimal} (hx : x.mantissa ≠ 0)
    (h : x.readsBack d = true) : d.digits ≠ 0 := by
  intro hd
  have hlow : ∀ q : Nat, 0 < q → x.compareQuarters d q = .lt := by
    intro q hq
    rw [compareQuarters, hd, Nat.zero_mul, Nat.zero_mul, Nat.compare_eq_lt]
    refine Nat.mul_pos ?_ (Decimal.tenTo_pos _)
    rw [Nat.shiftLeft_eq]
    exact Nat.mul_pos hq (Nat.two_pow_pos _)
  have hquarters : 0 < if x.isNarrowBelow then 4 * x.mantissa - 1 else 4 * x.mantissa - 2 := by
    split <;> omega
  simp [readsBack, hlow _ hquarters] at h

/-- A neighbour on a grid is one that reads back. -/
theorem neighbour?_eq_some {below above d : Decimal} {belowReads aboveReads : Bool}
    {middle : Ordering} (h : neighbour? below above belowReads aboveReads middle = some d) :
    belowReads = true ∧ d = below ∨ aboveReads = true ∧ d = above := by
  unfold neighbour? at h
  split at h
  · cases h
  · exact .inl ⟨rfl, (Option.some.inj h).symm⟩
  · exact .inr ⟨rfl, (Option.some.inj h).symm⟩
  · exact .inl ⟨rfl, (Option.some.inj h).symm⟩
  · exact .inr ⟨rfl, (Option.some.inj h).symm⟩
  · split at h
    · exact .inl ⟨rfl, (Option.some.inj h).symm⟩
    · exact .inr ⟨rfl, (Option.some.inj h).symm⟩

theorem readsBack_of_onGrid? {x : Magnitude} {exponent : Int} {d : Decimal}
    (h : x.onGrid? exponent = some d) : x.readsBack d = true := by
  rcases neighbour?_eq_some h with ⟨hreads, hd⟩ | ⟨hreads, hd⟩
  · rw [hd]
    exact hreads
  · rw [hd]
    exact hreads

theorem exact_digits_ne_zero {x : Magnitude} (hx : x.mantissa ≠ 0) : x.exact.digits ≠ 0 := by
  have hunits : x.units ≠ 0 := by
    rw [units, Nat.shiftLeft_eq]
    exact Nat.mul_ne_zero hx (Nat.two_pow_pos _).ne'
  unfold exact
  dsimp only
  -- the power is too large to be computed
  generalize 1074 = exponent
  exact Nat.mul_ne_zero hunits (Nat.pow_pos (show 0 < 5 by decide)).ne'

theorem trimmed_getD_digits_ne_zero {found : Option Decimal} {e : Decimal}
    (hfound : ∀ d ∈ found, d.digits ≠ 0) (he : e.digits ≠ 0) :
    (found.getD e).trimmed.digits ≠ 0 := by
  apply Decimal.trimmed_digits_ne_zero
  cases found with
  | none => exact he
  | some d => exact hfound d rfl

theorem shortest_of_mantissa_ne_zero {x : Magnitude} (hx : x.mantissa ≠ 0) :
    x.shortest = (((List.range 17).findSome? fun (n : Nat) =>
      x.onGrid? (x.scale - (n + 1))).getD x.exact).trimmed :=
  if_neg hx

/-- The shortest decimal of a magnitude is laid out as a number. -/
theorem shortest_digits (x : Magnitude) :
    x.shortest.digits ≠ 0 ∨ x.shortest.exponent = 0 := by
  by_cases hx : x.mantissa = 0
  · unfold shortest
    rw [if_pos hx]
    exact .inr rfl
  · have hfound : ∀ d ∈ (List.range 17).findSome? fun n : Nat => x.onGrid? (x.scale - (n + 1)),
        d.digits ≠ 0 := by
      intro d hd
      obtain ⟨n, -, hn⟩ := List.exists_of_findSome?_eq_some hd
      exact digits_ne_zero_of_readsBack hx (readsBack_of_onGrid? hn)
    left
    rw [shortest_of_mantissa_ne_zero hx]
    exact trimmed_getD_digits_ne_zero hfound (exact_digits_ne_zero hx)

end Magnitude

namespace Json

/-- The double that is read where a double was written. -/
def rereadFloat (x : Float) : Float :=
  match Extent.ofFloat x with
  | .finite m => m.shortest.parts.decimal.toFloat (floatIsNegative x)
  | .infinite => floatOfBits (floatIsNegative x) infinityBits
  | .undefined => 0.0 / 0.0

/-- A double is read as a double. -/
theorem readPlain_floatText {x : Float} {rest : Text} (hrest : EndsNumber rest) :
    readPlain (floatText x ++ rest) = .ok (.float (rereadFloat x), rest) := by
  unfold floatText rereadFloat
  cases hx : Extent.ofFloat x with
  | finite m =>
    have hproper := Decimal.isProper_parts m.shortest_digits
    have hwhole := hproper.whole
    have hread (negative : Bool) := hproper.readMagnitude_text negative hrest
    have hplain := hwhole.readPlain_append (FloatParts.decimalsText m.shortest.parts.decimals ++
      FloatParts.exponentText m.shortest.parts.exponent ++ rest)
    dsimp only
    rw [Text.float, hx]
    dsimp only
    rw [Decimal.laidOut_eq]
    rw [← List.append_assoc, ← FloatParts.text] at hplain
    cases floatIsNegative x with
    | true => exact hplain.2.trans (hread true)
    | false => exact hplain.1.trans (hread false)
  | infinite =>
    cases floatIsNegative x with
    | true => rfl
    | false => rfl
  | undefined => rfl

end Json

end DiceBot
