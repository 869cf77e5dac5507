import DiceBot.Proofs.Dice.Selection

/-!
# Dice split between two selections

The orders in which the highest and the lowest dice are kept are not the reverse of one another:
of equal dice both discard those that fell earlier. Still their faces stand in reverse order, since
equal dice show equal faces. So if one selection keeps some number of dice and the other one as many
as are left, then each keeps the faces that the other one discards, though not always the same dice.

## Main definitions

* `Keep.opposite`: the selection of the dice at the other end

## Main results

* `Keep.map_fst_discardOrder_opposite`: the faces in the two orders
* `DiceTerm.perm_discarded_kept`: what one selection discards the other one keeps
* `DiceTerm.roll_add_roll_opposite`: the two totals make the sum of all dice
-/

namespace DiceBot

namespace Keep

/-- The selection of the dice at the other end. -/
def opposite : Keep → Keep
  | highest => lowest
  | lowest => highest

variable {keep : Keep} {faces : List Nat}

theorem opposite_opposite (keep : Keep) : keep.opposite.opposite = keep := by
  cases keep <;> rfl

theorem worth_opposite (keep : Keep) (face : Nat) :
    keep.opposite.worth face = -keep.worth face := by
  cases keep with
  | highest => rfl
  | lowest => exact (Int.neg_neg _).symm

theorem worth_injective {face face' : Nat} (h : keep.worth face = keep.worth face') :
    face = face' := by
  cases keep with
  | highest => exact Int.ofNat.inj h
  | lowest => exact Int.ofNat.inj (Int.neg_inj.mp h)

theorem perm_map_fst_discardOrder (keep : Keep) (faces : List Nat) :
    ((keep.discardOrder faces).map Prod.fst).Perm faces := by
  have hperm := (keep.perm_discardOrder faces).map Prod.fst
  rwa [List.zipIdx_map_fst] at hperm

theorem pairwise_map_fst_discardOrder (keep : Keep) (faces : List Nat) :
    ((keep.discardOrder faces).map Prod.fst).Pairwise fun a b => keep.worth a ≤ keep.worth b :=
  List.pairwise_map.mpr ((keep.pairwise_discardOrder faces).imp Precedes.worth_le)

/-- The faces stand in reverse order. -/
theorem map_fst_discardOrder_opposite (keep : Keep) (faces : List Nat) :
    (keep.opposite.discardOrder faces).map Prod.fst =
      ((keep.discardOrder faces).map Prod.fst).reverse := by
  have hreverse : (((keep.discardOrder faces).map Prod.fst).reverse).Pairwise
      fun a b => keep.opposite.worth a ≤ keep.opposite.worth b := by
    rw [List.pairwise_reverse]
    refine (keep.pairwise_map_fst_discardOrder faces).imp fun h => ?_
    rw [worth_opposite, worth_opposite]
    exact Int.neg_le_neg h
  refine List.Perm.eq_of_pairwise (fun a b _ _ hab hba => worth_injective (Int.le_antisymm hab hba))
    (keep.opposite.pairwise_map_fst_discardOrder faces) hreverse ?_
  exact (keep.opposite.perm_map_fst_discardOrder faces).trans
    ((List.reverse_perm _).trans (keep.perm_map_fst_discardOrder faces)).symm

/-- The faces that are dropped are spared by the opposite selection of the other dice. -/
theorem perm_dropped_spared (keep : Keep) {k : Nat} (hk : k ≤ faces.length) :
    ((keep.dropped k faces).map Prod.fst).Perm
      ((keep.opposite.spared ((faces.length : Int) - k) faces).map Prod.fst) := by
  have hdropped : ((faces.length : Int) - k).toNat = faces.length - k := by omega
  have hspared : ((faces.length : Int) - ((faces.length : Int) - k)).toNat = k := by omega
  have hlength : ((keep.discardOrder faces).map Prod.fst).length = faces.length :=
    (keep.perm_map_fst_discardOrder faces).length_eq
  rw [dropped, spared, hdropped, hspared, List.map_take, List.map_drop,
    map_fst_discardOrder_opposite, List.drop_reverse, hlength]
  exact (List.reverse_perm _).symm

end Keep

namespace DiceTerm

variable {term other : DiceTerm} {keep : Keep} {k : Nat} {faces : List Nat}

/-- The dice that are kept and those that are discarded are all dice. -/
theorem perm_kept_append_discarded (term : DiceTerm) (faces : List Nat) :
    ((term.result faces).kept ++ (term.result faces).discarded).Perm
      (faces.map fun face : Nat => (face : Int)) := by
  have hall := (List.filter_append_perm (fun v : Int => decide (0 ≤ v)) (term.values faces)).map
    fun v => (v.natAbs : Int)
  have hfaces : (term.values faces).map (fun v => (v.natAbs : Int)) =
      faces.map fun face : Nat => (face : Int) := by
    conv_rhs => rw [← map_natAbs_values term faces, List.map_map]
    rfl
  have hkept : ((term.values faces).filter fun v => decide (0 ≤ v)).map
      (fun v => (v.natAbs : Int)) = (term.result faces).kept := by
    refine (List.map_congr_left fun v hv => ?_).trans (List.map_id _)
    exact Int.natAbs_of_nonneg (of_decide_eq_true (List.mem_filter.mp hv).2)
  have hdiscarded : ((term.values faces).filter fun v => !decide (0 ≤ v)).map
      (fun v => (v.natAbs : Int)) = (term.result faces).discarded := by
    have hfilter : ((term.values faces).filter fun v => !decide (0 ≤ v)) =
        (term.values faces).filter (· < 0) :=
      List.filter_congr fun v _ => by rw [← decide_not, decide_eq_decide, Int.not_le]
    rw [hfilter]
    refine List.map_congr_left fun v hv => ?_
    have hneg : v < 0 := of_decide_eq_true (List.mem_filter.mp hv).2
    omega
  rwa [List.map_append, hkept, hdiscarded, hfaces] at hall

/-- What one selection discards the opposite selection of the other dice keeps. -/
theorem perm_discarded_kept (hk : k ≤ faces.length) (hterm : term.keep = some (keep, (k : Int)))
    (hother : other.keep = some (keep.opposite, (faces.length : Int) - k))
    (hfaces : ∀ face ∈ faces, 1 ≤ face) :
    (term.result faces).discarded.Perm (other.result faces).kept := by
  have hsplit := (keep.perm_dropped_spared hk).map fun face : Nat => (face : Int)
  rw [List.map_map, List.map_map] at hsplit
  exact (perm_discarded hterm hfaces).trans (hsplit.trans (perm_kept hother hfaces).symm)

/-- **Two opposite selections split the dice.** Let one term keep `k` of its dice, and another one
with as many dice of as many sides keep the other dice from the other end. On the same dice what
the one discards the other keeps, and the two totals make the sum of all dice. -/
theorem roll_add_roll_opposite (hcount : other.count = term.count)
    (hsides : other.sides = term.sides) (hpos : 1 ≤ term.sides) (hk : k ≤ term.count)
    (hterm : term.keep = some (keep, (k : Int)))
    (hother : other.keep = some (keep.opposite, (term.count : Int) - k)) (shaker : Shaker)
    (index : Nat) :
    (term.roll shaker index).total + (other.roll shaker index).total =
        ((shaker.faces index term.count term.sides).sum : Nat) ∧
      (term.roll shaker index).discarded.Perm (other.roll shaker index).kept ∧
      (other.roll shaker index).discarded.Perm (term.roll shaker index).kept := by
  unfold roll
  rw [hcount, hsides]
  have hlength := shaker.length_faces index term.count term.sides
  have hfaces : ∀ face ∈ shaker.faces index term.count term.sides, 1 ≤ face :=
    fun face hface => (Shaker.mem_faces hpos hface).1
  generalize shaker.faces index term.count term.sides = faces at hlength hfaces ⊢
  rw [← hlength] at hk hother
  have hsplit := perm_discarded_kept hk hterm hother hfaces
  refine ⟨?_, hsplit, ?_⟩
  · calc (term.result faces).total + (other.result faces).total
        = (term.result faces).kept.sum + (other.result faces).kept.sum := rfl
      _ = (term.result faces).kept.sum + (term.result faces).discarded.sum := by
        rw [hsplit.sum_eq]
      _ = (faces.map fun face : Nat => (face : Int)).sum := by
        rw [← List.sum_append, (perm_kept_append_discarded term faces).sum_eq]
      _ = (faces.sum : Nat) := (map_list_sum (Nat.castRingHom Int) faces).symm
  · have hrest : other.keep = some (keep.opposite, ((faces.length - k : Nat) : Int)) := by
      rw [hother, Nat.cast_sub hk]
    refine perm_discarded_kept (Nat.sub_le _ _) hrest ?_ hfaces
    rw [hterm, Keep.opposite_opposite, Nat.cast_sub hk, Int.sub_sub_self]

/-- Five dice of which the two highest are kept. -/
def twoHighest : DiceTerm :=
  ⟨5, 6, "5d6kh2", 0, some (.highest, 2), []⟩

/-- Five dice of which the three lowest are kept. -/
def threeLowest : DiceTerm :=
  ⟨5, 6, "5d6kl3", 0, some (.lowest, 3), []⟩

/-- Five dice that show 3, 1, 3, 6 and 3. -/
def threeOfAKind : Shaker :=
  .ofStream fun i => [2, 0, 2, 5, 2].getD i 0

/-- Three dice are equal: the last one is kept by both selections, and the first one by neither. -/
theorem roll_add_roll_threeOfAKind :
    threeLowest.count = twoHighest.count ∧ threeLowest.sides = twoHighest.sides ∧
      1 ≤ twoHighest.sides ∧ 2 ≤ twoHighest.count ∧
      twoHighest.keep = some (Keep.highest, ((2 : Nat) : Int)) ∧
      threeLowest.keep = some (Keep.highest.opposite, (twoHighest.count : Int) - (2 : Nat)) ∧
      (twoHighest.roll threeOfAKind 0).total + (threeLowest.roll threeOfAKind 0).total = 16 ∧
      (twoHighest.roll threeOfAKind 0).discarded.Perm (threeLowest.roll threeOfAKind 0).kept := by
  have hpos : 1 ≤ twoHighest.sides := by decide
  have hk : 2 ≤ twoHighest.count := by decide
  have hlow : threeLowest.keep =
      some (Keep.highest.opposite, (twoHighest.count : Int) - (2 : Nat)) := by decide
  have hcount : threeLowest.count = twoHighest.count := rfl
  obtain ⟨htotals, hdice, -⟩ := roll_add_roll_opposite hcount rfl hpos hk rfl hlow threeOfAKind 0
  exact ⟨hcount, rfl, hpos, hk, rfl, hlow, htotals, hdice⟩

end DiceTerm

end DiceBot
