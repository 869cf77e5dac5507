import DiceBot.Expr.Value
import DiceBot.Proofs.Checked
import DiceBot.Proofs.Expr.Grammar
import DiceBot.Proofs.Expr.Leaves
import DiceBot.Proofs.Token.Proper

/-!
# Expressions of the same shape

Two expressions may differ in their leaves only. Then tokens that write the one become tokens of
the other when the leaves are exchanged; the two are equally high, and have the same value if their
leaves have.

## Main definitions

* `Expr.Alike`, `Token.Alike`: the same but for the leaves, which are related

## Main results

* `parse_alike`: tokens that are alike form expressions that are alike
* `Expr.Alike.value_eq_ok`: a value is kept when the values of the leaves are
-/

namespace DiceBot

namespace Expr

/-- Whether an expression is a number or a dice term. -/
def isLeaf : Expr → Bool
  | number _ _ => true
  | dice _ _ => true
  | _ => false

/-- The expressions have the same shape, and leaves in the same place are related. -/
inductive Alike (R : Expr → Expr → Prop) : Expr → Expr → Prop where
  | leaf {e e' : Expr} : e.isLeaf = true → e'.isLeaf = true → R e e' → Alike R e e'
  | signed {e e' : Expr} (s : Sign) : Alike R e e' → Alike R (signed s e) (signed s e')
  | product {l l' r r' : Expr} (s : Scaling) : Alike R l l' → Alike R r r' →
      Alike R (product s l r) (product s l' r')
  | sum {l l' r r' : Expr} (s : Sign) : Alike R l l' → Alike R r r' →
      Alike R (sum s l r) (sum s l' r')
  | group {e e' : Expr} : Alike R e e' → Alike R (group e) (group e')

end Expr

/-- The leaf that a token is. -/
def Token.leaf? (t : Token) : Option Expr :=
  match t.lexeme with
  | .number text => some (.number text t.position)
  | .dice text => some (.dice text t.position)
  | _ => none

/-- The tokens are the same lexeme, or both are leaves and these are related. -/
def Token.Alike (R : Expr → Expr → Prop) (t t' : Token) : Prop :=
  (∃ e e', t.leaf? = some e ∧ t'.leaf? = some e' ∧ R e e') ∨
    (t.leaf? = none ∧ t'.lexeme = t.lexeme)

theorem Token.leaf?_eq_some {t : Token} {e : Expr} (h : t.leaf? = some e) :
    e.isLeaf = true ∧ e.IsWrittenAs [t] := by
  obtain ⟨lexeme, position⟩ := t
  cases lexeme with
  | number text => cases h; exact ⟨rfl, Expr.isWrittenAs_number.mpr rfl⟩
  | dice text => cases h; exact ⟨rfl, Expr.isWrittenAs_dice.mpr rfl⟩
  | _ => cases h

namespace Expr

variable {R : Expr → Expr → Prop} {e e' : Expr}

theorem IsFactor.of_isLeaf (h : e.isLeaf = true) : e.IsFactor := by
  cases e with
  | number text position => exact .number text position
  | dice text position => exact .dice text position
  | _ => cases h

/-! ## What the shape determines -/

mutual

theorem IsFactor.of_alike : ∀ {e e' : Expr}, e.IsFactor → Alike R e e' → e'.IsFactor
  | _, _, _, .leaf _ h' _ => .of_isLeaf h'
  | _, _, .signed s he, .signed _ h => .signed s (he.of_alike h)
  | _, _, .group he, .group h => .group (he.of_alike h)

theorem IsTerm.of_alike : ∀ {e e' : Expr}, e.IsTerm → Alike R e e' → e'.IsTerm
  | _, _, .factor he, h => .factor (he.of_alike h)
  | _, _, .product _ _ _, .leaf _ h' _ => .factor (.of_isLeaf h')
  | _, _, .product s hl hr, .product _ h h' => .product s (hl.of_alike h) (hr.of_alike h')

theorem IsSum.of_alike : ∀ {e e' : Expr}, e.IsSum → Alike R e e' → e'.IsSum
  | _, _, .term he, h => .term (he.of_alike h)
  | _, _, .sum _ _ _, .leaf _ h' _ => .term (.factor (.of_isLeaf h'))
  | _, _, .sum s hl hr, .sum _ h h' => .sum s (hl.of_alike h) (hr.of_alike h')

end

theorem Alike.nesting_eq (h : Alike R e e') : e'.nesting = e.nesting := by
  induction h with
  | @leaf e e' h h' _ => cases e <;> cases h <;> cases e' <;> cases h' <;> rfl
  | signed s _ ih => simp [nesting, ih]
  | product s _ _ ihl ihr => simp [nesting, ihl, ihr]
  | sum s _ _ ihl ihr => simp [nesting, ihl, ihr]
  | group _ ih => simp [nesting, ih]

end Expr

/-! ## Tokens -/

namespace Token

variable {R : Expr → Expr → Prop} {t t' : Token}

/-- A token that is no leaf keeps its lexeme. -/
theorem Alike.lexeme_eq (h : Token.Alike R t t') {l : Lexeme} (ht : t.lexeme = l)
    (hl : l.isLeaf = false) : t'.lexeme = l := by
  rcases h with ⟨e, _, he, _⟩ | ⟨_, hsame⟩
  · obtain ⟨lexeme, position⟩ := t
    cases ht
    cases lexeme with
    | number text => cases hl
    | dice text => cases hl
    | _ => cases he
  · exact hsame.trans ht

theorem exists_alike_of_leaf? {e : Expr} {tokens' : List Token} (he : t.leaf? = some e)
    (ht : List.Forall₂ (Token.Alike R) [t] tokens') :
    ∃ e', Expr.Alike R e e' ∧ e'.IsWrittenAs tokens' := by
  obtain ⟨t', _, ht', hnil, rfl⟩ := List.forall₂_cons_left_iff.mp ht
  cases hnil
  rcases ht' with ⟨a, e', ha, he', hr⟩ | ⟨hn, _⟩
  · cases he.symm.trans ha
    obtain ⟨hl', hw'⟩ := leaf?_eq_some he'
    exact ⟨e', .leaf (leaf?_eq_some he).1 hl' hr, hw'⟩
  · cases he.symm.trans hn

end Token

namespace Expr

variable {R : Expr → Expr → Prop} {e e' : Expr}

/-- Exchanging the leaves among the tokens of an expression exchanges its leaves. -/
theorem exists_alike {tokens tokens' : List Token} (hw : e.IsWrittenAs tokens)
    (ht : List.Forall₂ (Token.Alike R) tokens tokens') :
    ∃ e', Alike R e e' ∧ e'.IsWrittenAs tokens' := by
  induction e generalizing tokens tokens' with
  | number text position =>
    cases isWrittenAs_number.mp hw
    exact Token.exists_alike_of_leaf? rfl ht
  | dice text position =>
    cases isWrittenAs_dice.mp hw
    exact Token.exists_alike_of_leaf? rfl ht
  | signed s e ih =>
    obtain ⟨t, rest, rfl, hs, hr⟩ := isWrittenAs_signed.mp hw
    obtain ⟨t', rest', hmark, hrest, rfl⟩ := List.forall₂_cons_left_iff.mp ht
    obtain ⟨e', he', hw'⟩ := ih hr hrest
    exact ⟨_, .signed s he', isWrittenAs_signed.mpr ⟨t', rest', rfl, hmark.lexeme_eq hs rfl, hw'⟩⟩
  | product s l r ihl ihr =>
    obtain ⟨front, t, back, rfl, hl, hs, hr⟩ := isWrittenAs_product.mp hw
    obtain ⟨front', _, rfl, hfront, hrest⟩ := forall₂_append_left_iff.mp ht
    obtain ⟨t', back', hmark, hback, rfl⟩ := List.forall₂_cons_left_iff.mp hrest
    obtain ⟨l', hl', hwl⟩ := ihl hl hfront
    obtain ⟨r', hr', hwr⟩ := ihr hr hback
    exact ⟨_, .product s hl' hr',
      isWrittenAs_product.mpr ⟨front', t', back', rfl, hwl, hmark.lexeme_eq hs rfl, hwr⟩⟩
  | sum s l r ihl ihr =>
    obtain ⟨front, t, back, rfl, hl, hs, hr⟩ := isWrittenAs_sum.mp hw
    obtain ⟨front', _, rfl, hfront, hrest⟩ := forall₂_append_left_iff.mp ht
    obtain ⟨t', back', hmark, hback, rfl⟩ := List.forall₂_cons_left_iff.mp hrest
    obtain ⟨l', hl', hwl⟩ := ihl hl hfront
    obtain ⟨r', hr', hwr⟩ := ihr hr hback
    exact ⟨_, .sum s hl' hr',
      isWrittenAs_sum.mpr ⟨front', t', back', rfl, hwl, hmark.lexeme_eq hs rfl, hwr⟩⟩
  | group e ih =>
    obtain ⟨t, inner, u, rfl, ho, hi, hc⟩ := isWrittenAs_group.mp hw
    obtain ⟨t', _, hopening, hrest, rfl⟩ := List.forall₂_cons_left_iff.mp ht
    obtain ⟨inner', _, rfl, hinner, hlast⟩ := forall₂_append_left_iff.mp hrest
    obtain ⟨u', _, hclosing, hnil, rfl⟩ := List.forall₂_cons_left_iff.mp hlast
    cases hnil
    obtain ⟨e', he', hw'⟩ := ih hi hinner
    exact ⟨_, .group he',
      isWrittenAs_group.mpr ⟨t', inner', u', rfl, hopening.lexeme_eq ho rfl, hw',
        hclosing.lexeme_eq hc rfl⟩⟩

end Expr

/-- Tokens that are alike form expressions that are alike. -/
theorem parse_alike {R : Expr → Expr → Prop} {tokens tokens' : List Token} {tree : Expr}
    (h : parse tokens = .ok tree) (ht : List.Forall₂ (Token.Alike R) tokens tokens') :
    ∃ tree', parse tokens' = .ok tree' ∧ Expr.Alike R tree tree' := by
  obtain ⟨hs, hw⟩ := parse_sound h
  obtain ⟨tree', halike, hw'⟩ := Expr.exists_alike hw ht
  refine ⟨tree', ?_, halike⟩
  rw [parse_of_isWrittenAs hs hw] at h
  rw [parse_of_isWrittenAs (hs.of_alike halike) hw', halike.nesting_eq]
  split at h
  · rename_i hd
    exact if_pos hd
  · cases h

/-! ## Heights and values -/

namespace Expr

variable {R : Expr → Expr → Prop} {e e' : Expr}

theorem height_of_isLeaf (h : e.isLeaf = true) : e.height = 1 := by
  cases e <;> cases h <;> rfl

theorem Alike.height_eq (h : Alike R e e') : e'.height = e.height := by
  induction h with
  | leaf h h' _ => rw [height_of_isLeaf h, height_of_isLeaf h']
  | signed _ _ ih | group _ ih => exact congrArg (· + 1) ih
  | product _ _ _ ihl ihr | sum _ _ _ ihl ihr => simp only [height, ihl, ihr]

/-- An expression holds no dice if its leaves are none. -/
theorem Alike.leaves_eq_nil (h : Alike R e e') (hl : ∀ a a', R a a' → a'.leaves = []) :
    e'.leaves = [] := by
  induction h with
  | leaf _ _ hr => exact hl _ _ hr
  | signed _ _ ih | group _ ih => exact ih
  | product _ _ _ ihl ihr | sum _ _ _ ihl ihr => rw [leaves, ihl, ihr, List.append_nil]

/-- A value is kept when the values of the leaves are. -/
theorem Alike.value_eq_ok {total total' : Nat → Option Int} (h : Alike R e e')
    (hl : ∀ a a', R a a' → ∀ room x, value total (room + 1) a = .ok x →
      value total' (room + 1) a' = .ok x)
    {room : Nat} {x : Float} (hx : value total room e = .ok x) :
    value total' room e' = .ok x := by
  induction h generalizing room x with
  | leaf _ _ hr =>
    cases room with
    | zero => cases hx
    | succ room => exact hl _ _ hr room x hx
  | signed s _ ih =>
    cases room with
    | zero => cases hx
    | succ room =>
      cases s with
      | plus => exact ih hx
      | minus =>
        obtain ⟨y, hy, hx⟩ := bind_eq_ok_iff.mp hx
        exact bind_eq_ok_iff.mpr ⟨y, ih hy, hx⟩
  | product s _ _ ihl ihr =>
    cases room with
    | zero => cases hx
    | succ room =>
      cases s
      · exact bind_bind_eq_ok (fun _ => ihl) (fun _ => ihr) hx
      · exact bind_bind_eq_ok (fun _ => ihl) (fun _ => ihr) hx
  | sum s _ _ ihl ihr =>
    cases room with
    | zero => cases hx
    | succ room =>
      cases s with
      | plus => exact bind_bind_eq_ok (fun _ => ihl) (fun _ => ihr) hx
      | minus => exact bind_bind_eq_ok (fun _ => ihl) (fun _ => ihr) hx
  | group _ ih =>
    cases room with
    | zero => cases hx
    | succ room => exact ih hx

end Expr

end DiceBot
