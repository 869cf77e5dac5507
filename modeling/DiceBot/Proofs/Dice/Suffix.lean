import DiceBot.Proofs.Dice.Subtotal
import DiceBot.Proofs.Expr.Valueless

/-!
# The arithmetic behind a dice term

The longest run behind a dice term is its suffix: it is what a trace shows behind the dice, and it
is evaluated behind their total. Reading it again behind a numeral gives the same tokens, so that
the subtotal is the value of the run with the die replaced by its total, unless the run is too deep
to be evaluated. Suffixes of different terms are apart, and a command that is one term with its
suffix has the value of its subtotal, again unless that is too deep: there is less room for it than
there was for the command.

## Main definitions

* `Token.ShowsRun`: what a run is for the token in front of it

## Main results

* `Token.showsRun_adjacentRun`: every token of a text shows the longest run behind it
* `Outcome.exists_subtotal_eq_total`: the subtotal of a term with its suffix
* `suffixes_of_tokens`: suffixes and subtotals in any text
-/

namespace DiceBot

namespace Token

/-- What the longest run behind a token is: the suffix that is found for the token, written in one
piece. Behind any numeral it is read as the same tokens, which stand as much further on as the
numeral is long, and the subtotal of a roll with this suffix is the value of the run behind the
total, or the fault that it meets, provided that there is room for it. -/
structure ShowsRun (t : Text) (tokens : List Token) (i : Nat) (u : Token) (run : List Token) :
    Prop where
  longest : IsLongestRun u.stop (tokens.drop (i + 1)) run
  suffix : suffixAt? tokens i = some (run.flatMap text)
  written : run.flatMap text <+: t.drop u.stop
  tokens_append : ∀ n : Nat, (Text.natural n ++ run.flatMap text).tokens =
    .ok (⟨.number (.natural n), 0⟩ ::
      run.map (moved fun p => p - u.stop + (Text.natural n).length))
  subtotal : ∀ n : Nat, ∃ e, parse (⟨.number (.natural n), u.position⟩ :: run) = .ok e ∧
    ∀ r : Roll, r.suffix = run.flatMap text → r.total = n →
      (r.IsShallow ↔ e.height ≤ Roll.room - 2) ∧
      r.subtotal =
        if tenTo maxNumeralDigits ≤ n then .error .numeralTooLong
        else if e.height ≤ Roll.room - 2 then e.unrolledValue e.height
        else .error .tooDeep

variable {t : Text} {run : List Token} {u : Token} {place : Nat}

/-- A run behind a numeral is read again as the expression of its tokens where they stand, but for
the places, and has the value of that. -/
theorem IsRun.expr_append (h : IsRun place run) (n : Text) (position : Nat)
    (hproper : ∀ m ∈ .number n :: run.map lexeme, (Piece.lexeme m).IsProper)
    (hplace : (⟨.number n, position⟩ :: run).Pairwise fun v w => v.position < w.position) :
    ∃ e e', parse (⟨.number n, position⟩ :: run) = .ok e ∧
      (n ++ run.flatMap text).expr = .ok e' ∧ e'.height = e.height ∧
      ∀ room, (n ++ run.flatMap text).valueWithin room =
        if e.height ≤ room - 2 then e.unrolledValue e.height else .error .tooDeep := by
  obtain ⟨e, hparse, hplain⟩ := h.exists_parse n position
  have htokens := h.tokens_append hproper
  -- what is read again has the same lexemes, so that its expression is the same but for places
  have hlexemes : (⟨.number n, 0⟩ :: run.map (moved fun p => p - place + n.length)).map lexeme =
      (⟨.number n, position⟩ :: run).map lexeme := by
    simp only [List.map_cons, List.map_map]
    rfl
  obtain ⟨f, hmoved⟩ := exists_moved hplace hlexemes
  have hagree := parse_moved f (⟨.number n, position⟩ :: run)
  rw [hparse, ← hmoved] at hagree
  generalize hagain : parse _ = x at hagree
  cases hagree with
  | @ok _ b hb =>
    subst hb
    have hexpr : (n ++ run.flatMap text).expr = .ok (e.moved f) := by
      rw [Text.expr, show (n ++ run.flatMap text).tokens = _ from htokens]
      exact hagain
    refine ⟨e, e.moved f, hparse, hexpr, e.height_moved, fun room => ?_⟩
    have hvalue := (hplain.moved f).valueWithin_eq hexpr room
    rwa [Expr.height_moved, Expr.unrolledValue_moved] at hvalue

theorem take_append_drop_of_getElem? {tokens : List Token} {i : Nat} (h : tokens[i]? = some u) :
    tokens.take i ++ u :: tokens.drop (i + 1) = tokens := by
  obtain ⟨hi, rfl⟩ := List.getElem?_eq_some_iff.mp h
  rw [← List.drop_eq_getElem_cons hi, List.take_append_drop]

theorem suffixAt?_of_getElem? {tokens : List Token} {i : Nat} (h : tokens[i]? = some u) :
    suffixAt? tokens i = some (u.suffix (tokens.drop (i + 1))) := by
  have hi := (List.getElem?_eq_some_iff.mp h).choose
  have hfound := suffixAt?_append (tokens.take i) (tokens.drop (i + 1)) u
  rwa [take_append_drop_of_getElem? h, List.length_take_of_le hi.le] at hfound

/-- Every token of a text shows the longest run behind it. -/
theorem showsRun_adjacentRun {tokens : List Token} {i : Nat} (h : t.tokens = .ok tokens)
    (hu : tokens[i]? = some u) :
    ShowsRun t tokens i u (adjacentRun u.stop (tokens.drop (i + 1))) := by
  obtain ⟨ps, hpieces, rfl⟩ := Text.exists_pieces_of_tokens h
  have hlaidOut := Text.isLaidOut_of_pieces hpieces
  have hlongest := isLongestRun_adjacentRun u.stop ((placed 0 ps).drop (i + 1))
  have hsubset : adjacentRun u.stop ((placed 0 ps).drop (i + 1)) ⊆ placed 0 ps :=
    List.Subset.trans hlongest.isPrefix.subset (List.drop_subset _ _)
  have hproper (n : Nat) : ∀ m ∈ .number (.natural n) ::
      (adjacentRun u.stop ((placed 0 ps).drop (i + 1))).map lexeme, (Piece.lexeme m).IsProper := by
    refine List.forall_mem_cons.mpr ⟨.whole (Text.isDigits_natural n), ?_⟩
    intro m hm
    exact hlaidOut.isProper_of_mem_map hsubset hm
  have hplace (n : Nat) : (⟨.number (.natural n), u.position⟩ ::
      adjacentRun u.stop ((placed 0 ps).drop (i + 1))).Pairwise
        fun v w => v.position < w.position := by
    have hascending := hlaidOut.ascending
    rw [← take_append_drop_of_getElem? hu] at hascending
    obtain ⟨hfirst, hrest⟩ := List.pairwise_cons.mp (List.pairwise_append.mp hascending).2.1
    exact List.pairwise_cons.mpr ⟨fun v hv => hfirst v (hlongest.isPrefix.subset hv),
      hrest.sublist hlongest.isPrefix.sublist⟩
  refine ⟨hlongest, suffixAt?_of_getElem? hu, ?_, ?_, ?_⟩
  · apply hlongest.isRun.isPrefix_drop
    intro v hv
    exact hlaidOut.drop_position (hsubset hv)
  · intro n
    exact hlongest.isRun.tokens_append (hproper n)
  · intro n
    obtain ⟨e, e', hparse, hexpr, hheight, hvalue⟩ :=
      hlongest.isRun.expr_append (.natural n) u.position (hproper n) (hplace n)
    refine ⟨e, hparse, ?_⟩
    intro r hsuffix htotal
    have hshallow : r.IsShallow ↔ e.height ≤ Roll.room - 2 := by
      rw [Roll.IsShallow, hsuffix, htotal, Int.natAbs_natCast, hexpr, ← hheight]
      simp
    refine ⟨hshallow, ?_⟩
    rw [Roll.subtotal, hsuffix, htotal, Text.writeInteger, Int.natAbs_natCast]
    by_cases hlong : tenTo maxNumeralDigits ≤ n
    · rw [if_neg (Nat.not_lt.mpr hlong), if_pos hlong]
      rfl
    · rw [if_pos (Nat.not_le.mp hlong), if_neg hlong]
      exact hvalue Roll.room

/-! ## Suffixes of different terms -/

/-- The suffix behind a token ends before any dice term further on. -/
theorem suffix_stop_le {tokens : List Token} {i j : Nat} {v : Token} {s : Text}
    (h : t.tokens = .ok tokens) (hij : i < j) (hu : tokens[i]? = some u)
    (hv : tokens[j]? = some v) (hdice : v.lexeme.isDice = true)
    (hs : suffixAt? tokens i = some s) : u.stop + s.length ≤ v.position := by
  obtain ⟨ps, -, rfl⟩ := Text.exists_pieces_of_tokens h
  rw [suffixAt?_of_getElem? hu] at hs
  cases hs
  have hrun := isRun_adjacentRun u.stop ((placed 0 ps).drop (i + 1))
  obtain ⟨rest, hrest⟩ := adjacentRun_isPrefix u.stop ((placed 0 ps).drop (i + 1))
  have hmem : v ∈ (placed 0 ps).drop (i + 1) := by
    apply List.mem_of_getElem? (i := j - (i + 1))
    rw [List.getElem?_drop, Nat.add_sub_cancel' hij]
    exact hv
  have hapart := pairwise_placed 0 ps
  rw [← take_append_drop_of_getElem? hu] at hapart
  obtain ⟨hfirst, hbehind⟩ := List.pairwise_cons.mp (List.pairwise_append.mp hapart).2.1
  rw [← hrest] at hmem hbehind
  have hv : v ∈ rest := by
    refine (List.mem_append.mp hmem).resolve_left fun hin => ?_
    rw [hrun.isDice_eq_false hin] at hdice
    cases hdice
  apply hrun.stop_le (hfirst v (hrest ▸ hmem))
  intro w hw
  exact (List.pairwise_append.mp hbehind).2.2 w hw v hv

end Token

/-! ## Commands -/

namespace Outcome

variable {c t : Text} {tokens : List Token} {shaker : Shaker} {index : Nat} {o : Outcome}

/-- The plan of a command that was rolled, and the tokens of its dice terms. -/
theorem exists_plan (hc : Plan.command c = t) (h : t.tokens = .ok tokens)
    (ho : (c.rolled shaker index).1 = .ok o) :
    ∃ plan, Plan.ofText c = .ok plan ∧ placed 0 plan.pieces = tokens ∧
      o.rolls = DiceTerm.rollAll shaker index plan.terms ∧
      plan.tree.finiteValue (Plan.totals o.rolls) (Plan.room - 1) = .ok o.total := by
  obtain ⟨plan, written, hplan, hrolls, -, hvalue, -, -⟩ := Plan.exists_of_rolled ho
  refine ⟨plan, hplan, ?_, hrolls, hvalue⟩
  have hpieces := (Plan.ofText_eq_ok_iff.mp hplan).1
  rw [hc] at hpieces
  rw [Text.tokens, hpieces] at h
  exact Except.ok.inj h

/-- Every roll belongs to a dice term among the tokens and has its suffix. -/
theorem exists_token_of_mem_rolls (hc : Plan.command c = t) (h : t.tokens = .ok tokens)
    (ho : (c.rolled shaker index).1 = .ok o) {r : Roll} (hr : r ∈ o.rolls) :
    ∃ (i : Nat) (u : Token), tokens[i]? = some u ∧ u.lexeme.isDice = true ∧ r.text = u.text ∧
      r.place = (u.position : Int) ∧ Token.suffixAt? tokens i = some r.suffix ∧ 0 ≤ r.total := by
  obtain ⟨plan, hplan, htokens, hrolls, -⟩ := exists_plan hc h ho
  obtain ⟨front, u, following, hr⟩ := Plan.exists_rolls hplan (hrolls ▸ hr)
  have hsplit : tokens = front ++ u :: following := htokens.symm.trans hr.tokens
  have hu : tokens[front.length]? = some u := by
    rw [hsplit, List.getElem?_append_right (Nat.le_refl _), Nat.sub_self, List.getElem?_cons_zero]
  refine ⟨front.length, u, hu, hr.isDice, hr.text, hr.place, ?_, hr.total⟩
  rw [hsplit, Token.suffixAt?_append, hr.suffix]

end Outcome

/-- A token that is no dice term stays what it is in the flattened text. -/
theorem Token.alike_flattened {u : Token} (h : u.lexeme.isDice = false) (total : Nat → Option Int) :
    Token.Alike (Expr.Flattened total) u u := by
  obtain ⟨lexeme, position⟩ := u
  cases lexeme with
  | number text => exact .inl ⟨_, _, rfl, rfl, .number text position position⟩
  | dice text => cases h
  | _ => exact .inr ⟨rfl, rfl⟩

/-- The value of a command whose only dice term comes first is that of the tokens with the total in
its place. -/
theorem Plan.unrolledValue_of_head {plan : Plan} {c text : Text} {position n : Nat}
    {run : List Token} {total : Nat → Option Int} {limit : Nat} {x : Float} {e : Expr}
    (h : ofText c = .ok plan) (htokens : placed 0 plan.pieces = ⟨.dice text, position⟩ :: run)
    (hdice : ∀ u ∈ run, u.lexeme.isDice = false) (htotal : total position = some (n : Int))
    (hvalue : plan.tree.finiteValue total limit = .ok x)
    (hparse : parse (⟨.number (.natural n), position⟩ :: run) = .ok e) :
    e.unrolledValue e.height = .ok x := by
  obtain ⟨-, htree, -, -⟩ := ofText_eq_ok_iff.mp h
  rw [htokens] at htree
  have hfirst : Token.Alike (Expr.Flattened total) ⟨.dice text, position⟩
      ⟨.number (.natural n), position⟩ :=
    .inl ⟨_, _, rfl, rfl, .dice text position position htotal⟩
  have hrest : List.Forall₂ (Token.Alike (Expr.Flattened total)) run run :=
    List.forall₂_same.mpr fun u hu => Token.alike_flattened (hdice u hu) total
  obtain ⟨e', hparse', halike⟩ := parse_alike htree (.cons hfirst hrest)
  cases hparse.symm.trans hparse'
  obtain ⟨y, hy, hfinite⟩ := bind_eq_ok_iff.mp hvalue
  have hy' := halike.value_eq_ok (fun _ _ h => h.value_eq_ok fun _ => none) hy
  rw [← Expr.value_eq_of_height_le le_rfl (Expr.height_le_of_value hy')] at hy'
  exact bind_eq_ok_iff.mpr ⟨y, hy', hfinite⟩

namespace Token

variable {t : Text} {tokens : List Token} {u : Token}

/-- Where a text is a token with its suffix behind it, the run is all that follows. -/
theorem drop_eq_adjacentRun {s : Text} (h : t.tokens = .ok tokens) (hu : tokens.head? = some u)
    (hs : suffixAt? tokens 0 = some s) (ht : t = u.text ++ s) :
    tokens = u :: adjacentRun u.stop (tokens.drop 1) := by
  obtain ⟨following, rfl⟩ := List.head?_eq_some_iff.mp hu
  have hhead : (u :: following)[0]? = some u := rfl
  have hsuffix := (suffixAt?_of_getElem? hhead).symm.trans hs
  cases hsuffix
  obtain ⟨ps, hpieces, hplaced⟩ := Text.exists_pieces_of_tokens h
  have hlaidOut := Text.isLaidOut_of_pieces hpieces
  rw [hplaced] at hlaidOut
  have hrun := isRun_adjacentRun u.stop following
  have hbegins := adjacentRun_isPrefix u.stop following
  have hproper : ∀ m ∈ u.lexeme :: (adjacentRun u.stop following).map lexeme,
      (Piece.lexeme m).IsProper := by
    refine List.forall_mem_cons.mpr ⟨hlaidOut.proper u List.mem_cons_self, ?_⟩
    intro m hm
    exact hlaidOut.isProper_of_mem_map (List.subset_cons_of_subset u hbegins.subset) hm
  have hagain := hrun.tokens_append hproper
  have hwritten : t = u.lexeme.text ++ (adjacentRun u.stop following).flatMap text := ht
  rw [← hwritten, h] at hagain
  have hlength := congrArg List.length (Except.ok.inj hagain)
  rw [List.length_cons, List.length_cons, List.length_map, Nat.add_right_cancel_iff] at hlength
  exact congrArg (u :: ·) (hbegins.eq_of_length hlength.symm).symm

end Token

/-- The subtotal of a command that is a dice term with its suffix is the value of the command, as
far as there is room for it. -/
theorem Outcome.exists_subtotal_eq_total {c t s : Text} {tokens : List Token} {u : Token}
    {shaker : Shaker} {index : Nat} {o : Outcome} (hc : Plan.command c = t)
    (h : t.tokens = .ok tokens) (ho : (c.rolled shaker index).1 = .ok o)
    (hu : tokens.head? = some u) (hdice : u.lexeme.isDice = true)
    (hs : Token.suffixAt? tokens 0 = some s) (ht : t = u.text ++ s) :
    ∃ r, o.rolls = [r] ∧ (r.IsShallow → r.subtotal = .ok o.total) ∧
      (¬ r.IsShallow → r.subtotal = .error .tooDeep) := by
  obtain ⟨plan, hplan, htokens, hrolls, hvalue⟩ := exists_plan hc h ho
  have hrun := Token.isRun_adjacentRun u.stop (tokens.drop 1)
  have hall := Token.drop_eq_adjacentRun h hu hs ht
  have hshows := Token.showsRun_adjacentRun h (List.head?_eq_getElem? ▸ hu)
  generalize Token.adjacentRun u.stop (tokens.drop 1) = run at hrun hall hshows
  have hrest : ∀ v ∈ run, v.lexeme.isDice = false := fun v hv => hrun.isDice_eq_false hv
  have hfilter : (u :: run).filter (fun v => v.lexeme.isDice) = [u] := by
    rw [List.filter_cons, if_pos hdice, List.filter_eq_nil_iff.mpr]
    intro v hv
    rw [hrest v hv]
    exact nofun
  have htotals := Plan.forall₂_totals_rollAll hplan shaker index
  rw [htokens, ← hrolls, hall, hfilter] at htotals
  obtain ⟨r, rest, ⟨htotal, hnonneg⟩, hnil, hone⟩ := List.forall₂_cons_left_iff.mp htotals
  obtain rfl := List.forall₂_nil_left_iff.mp hnil
  have hmem : r ∈ o.rolls := by
    rw [hone]
    exact List.mem_singleton_self r
  have hsuffix : Token.suffixAt? tokens 0 = some r.suffix := by
    obtain ⟨i, v, hv, hvdice, -, -, hsuffix, -⟩ := exists_token_of_mem_rolls hc h ho hmem
    cases i with
    | zero => exact hsuffix
    | succ i =>
      rw [hall, List.getElem?_cons_succ] at hv
      rw [hrest v (List.mem_of_getElem? hv)] at hvdice
      cases hvdice
  obtain ⟨n, hn⟩ := Int.eq_ofNat_of_zero_le hnonneg
  obtain ⟨e, hparse, hsubtotal⟩ := hshows.subtotal n
  obtain ⟨hshallow, hshown⟩ :=
    hsubtotal r (Option.some.inj (hsuffix.symm.trans hshows.suffix)) hn
  obtain ⟨text, hterm⟩ := Token.exists_dice_of_isDice hdice
  rw [hn] at htotal
  rw [hall, hterm] at htokens
  have hlt := (Text.isWritable_of_rolled ho r hmem).total
  rw [hn, Int.natAbs_natCast] at hlt
  rw [if_neg (Nat.not_le.mpr hlt),
    Plan.unrolledValue_of_head hplan htokens hrest htotal hvalue hparse] at hshown
  refine ⟨r, hone, fun h => ?_, fun h => ?_⟩
  · exact hshown.trans (if_pos (hshallow.mp h))
  · exact hshown.trans (if_neg (mt hshallow.mpr h))

/-- **Subtotals are the values of what they show.** In any text that is cut into tokens, what is
found behind a token is the longest run there, and it is evaluated as that run. Suffixes of different
dice terms do not overlap. When the text is rolled, each roll has the suffix of its dice term. If the
text is one dice term with its suffix, then the subtotal is the value of the whole, unless it is too
deep for the room that is left when a trace is made, and is refused for that. -/
theorem suffixes_of_tokens {t : Text} {tokens : List Token} (h : t.tokens = .ok tokens) :
    (∀ (i : Nat) (u : Token), tokens[i]? = some u →
      ∃ run, Token.ShowsRun t tokens i u run) ∧
    (∀ (i j : Nat) (u v : Token) (s : Text), i < j → tokens[i]? = some u →
      tokens[j]? = some v → v.lexeme.isDice = true → Token.suffixAt? tokens i = some s →
      u.stop + s.length ≤ v.position) ∧
    ∀ (c : Text) (shaker : Shaker) (index : Nat) (o : Outcome), Plan.command c = t →
      (c.rolled shaker index).1 = .ok o →
      (∀ r ∈ o.rolls, ∃ (i : Nat) (u : Token), tokens[i]? = some u ∧ u.lexeme.isDice = true ∧
        r.text = u.text ∧ r.place = (u.position : Int) ∧
        Token.suffixAt? tokens i = some r.suffix ∧ 0 ≤ r.total) ∧
      ∀ (u : Token) (s : Text), tokens.head? = some u → u.lexeme.isDice = true →
        Token.suffixAt? tokens 0 = some s → t = u.text ++ s →
        ∃ r, o.rolls = [r] ∧ (r.IsShallow → r.subtotal = .ok o.total) ∧
          (¬ r.IsShallow → r.subtotal = .error .tooDeep) := by
  refine ⟨?_, ?_, ?_⟩
  · intro i u hu
    exact ⟨_, Token.showsRun_adjacentRun h hu⟩
  · intro i j u v s hij hu hv hdice hs
    exact Token.suffix_stop_le h hij hu hv hdice hs
  · intro c shaker index o hc ho
    constructor
    · intro r hr
      exact Outcome.exists_token_of_mem_rolls hc h ho hr
    · intro u s hu hdice hs ht
      exact Outcome.exists_subtotal_eq_total hc h ho hu hdice hs ht

/-- Two dice with their suffix. -/
def Text.suffixedDice : Text :=
  "2d6*2+3"

/-- The tokens of two dice with their suffix. -/
def Token.suffixedDice : List Token :=
  [⟨.dice "2d6", 0⟩, ⟨.scaling .times, 3⟩, ⟨.number "2", 4⟩, ⟨.sign .plus, 5⟩, ⟨.number "3", 6⟩]

theorem suffixes_of_suffixedDice :
    Text.suffixedDice.tokens = .ok Token.suffixedDice ∧
      ∃ o r, (Text.suffixedDice.rolled (.ofStream id) 0).1 = .ok o ∧ o.rolls = [r] ∧
        r.suffix = "*2+3" ∧ r.subtotal = .ok o.total := by
  have htokens : Text.suffixedDice.tokens = .ok Token.suffixedDice := by decide +kernel
  have hheight : (Text.suffixedDice.expr >>= fun e => .ok e.height) = .ok 3 := by decide +kernel
  have hsuffix : ((Text.suffixedDice.rolled (.ofStream id) 0).1 >>= fun o =>
      .ok (o.rolls.map Roll.suffix)) = .ok [Text.ofString "*2+3"] := by
    decide +kernel
  obtain ⟨o, ho, hsuffix⟩ := bind_eq_ok_iff.mp hsuffix
  obtain ⟨e, he, hheight⟩ := bind_eq_ok_iff.mp hheight
  have hlow : e.height ≤ Roll.room - 2 := by
    rw [Except.ok.inj hheight]
    decide
  obtain ⟨-, -, hcommands⟩ := suffixes_of_tokens htokens
  obtain ⟨-, hsingle⟩ := hcommands Text.suffixedDice (.ofStream id) 0 o (by decide) ho
  obtain ⟨r, hone, hsubtotal, -⟩ :=
    hsingle ⟨.dice "2d6", 0⟩ "*2+3" rfl rfl (by decide +kernel) (by decide +kernel)
  have hshallow : r.IsShallow :=
    Outcome.isShallow_of_height_le ho he hlow r (hone ▸ List.mem_singleton_self r)
  rw [hone] at hsuffix
  exact ⟨htokens, o, r, ho, hone, List.singleton_inj.mp (Except.ok.inj hsuffix),
    hsubtotal hshallow⟩

/-- A die, times many ones. -/
def Text.longProduct (ones : Nat) : Text :=
  "d6" ++ (List.replicate ones (Text.ofString "*1")).flatten

/-- The expression that a die times many ones is. -/
def Expr.longProduct : (ones : Nat) → Expr
  | 0 => .dice "d6" 0
  | ones + 1 => .product .times (longProduct ones) (.number "1" (2 * ones + 3))

/-- The dice term of a long product. -/
def DiceTerm.ofLongProduct (ones : Nat) : DiceTerm where
  count := 1
  sides := 6
  text := "d6"
  position := 0
  suffix := (Text.longProduct ones).drop 2

theorem Expr.value_longProduct {total : Nat → Option Int} (h : total 0 = some 1) {ones room : Nat}
    (hroom : ones < room) : (longProduct ones).value total room = .ok 1.0 := by
  obtain ⟨room, rfl⟩ := Nat.exists_eq_add_of_le' (Nat.one_le_of_lt hroom)
  induction ones generalizing room with
  | zero =>
    have hone : floatOfInteger 1 = .ok 1.0 := by decide +kernel
    simp only [longProduct, value, h, hone]
  | succ ones ih =>
    obtain ⟨room, rfl⟩ := Nat.exists_eq_add_of_le' (Nat.one_le_of_lt (Nat.lt_of_succ_lt_succ hroom))
    have hproduct : (1.0 : Float) * (Text.ofString "1").readNumber = 1.0 := by decide +kernel
    have hvalue := ih room (Nat.lt_of_succ_lt_succ hroom)
    rw [longProduct, value, hvalue]
    exact congrArg Except.ok hproduct

/-- A command that is such a product is rolled if there is room for it. -/
theorem Plan.exists_outcome {plan : Plan} {ones : Nat} {r : Roll}
    (htree : plan.tree = .longProduct ones) (hroom : ones < room - 1) (hplace : r.place = 0)
    (htotal : r.total = 1) : ∃ o, plan.outcome [r] = .ok o ∧ o.rolls = [r] := by
  have hone : Text.writeInteger 1 = .ok "1" := by decide +kernel
  have hwritten : [r].mapM (fun r => Text.writeInteger r.total) = .ok [Text.ofString "1"] := by
    refine mapM_eq_ok_iff.mpr (.cons ?_ .nil)
    rw [htotal]
    exact hone
  have htotals : totals [r] 0 = some 1 := by
    simp [totals, hplace, htotal]
  have hvalue : plan.tree.finiteValue (totals [r]) (room - 1) = .ok 1.0 := by
    rw [htree, Expr.finiteValue, Expr.value_longProduct htotals hroom]
    decide +kernel
  refine ⟨_, bind_eq_ok_iff.mpr ⟨_, hwritten, bind_eq_ok_iff.mpr ⟨_, hvalue, rfl⟩⟩, rfl⟩

/-- A die times 992 ones is rolled, but there is no room for its subtotal. -/
theorem subtotal_of_longProduct :
    ∃ o r, ((Text.longProduct 992).rolled (.ofStream id) 0).1 = .ok o ∧ o.rolls = [r] ∧
      r.text = "d6" ∧ Text.longProduct 992 = r.text ++ r.suffix ∧
      r.subtotal = .error .tooDeep := by
  have htree : (Plan.ofText (Text.longProduct 992) >>= fun plan => .ok plan.tree) =
      .ok (Expr.longProduct 992) := by
    decide +kernel
  have hterms : (Plan.ofText (Text.longProduct 992) >>= fun plan => .ok (plan.terms.map
      fun term => ({ term with suffix := [] }, term.suffix == (Text.longProduct 992).drop 2))) =
        .ok [({ DiceTerm.ofLongProduct 992 with suffix := [] }, true)] := by
    decide +kernel
  have hdeep : ((DiceTerm.ofLongProduct 992).roll (.ofStream id) 0).subtotal =
      .error .tooDeep := by
    decide +kernel
  obtain ⟨plan, hplan, htree⟩ := bind_eq_ok_iff.mp htree
  obtain ⟨_, hplan', hterms⟩ := bind_eq_ok_iff.mp hterms
  obtain rfl := Except.ok.inj (hplan.symm.trans hplan')
  obtain ⟨⟨count, sides, text, position, keep, suffix⟩, hterm, hread⟩ :=
    List.map_eq_singleton_iff.mp (Except.ok.inj hterms)
  obtain ⟨hparts, hsuffix⟩ := Prod.mk.inj hread
  obtain rfl : suffix = (Text.longProduct 992).drop 2 := eq_of_beq hsuffix
  cases hparts
  obtain ⟨o, ho, hrolls⟩ := plan.exists_outcome (Except.ok.inj htree) (by decide)
    (r := (DiceTerm.ofLongProduct 992).roll (.ofStream id) 0) rfl rfl
  refine ⟨o, _, ?_, hrolls, rfl, rfl, hdeep⟩
  rw [Text.rolled, hplan]
  change plan.outcome (DiceTerm.rollAll _ _ plan.terms) = _
  rw [hterm]
  exact ho

end DiceBot
