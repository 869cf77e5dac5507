import Mathlib.Algebra.BigOperators.Group.List.Basic
import Mathlib.Data.List.Nodup
import Mathlib.Data.List.Perm.Basic
import Mathlib.Order.Bounds.Basic
import DiceBot.Proofs.Dice.Play

/-!
# Selected dice

A selector sorts the dice of a term by their faces, the worst first, and discards as many from the
front as are not to be kept. Since the sort is stable, of equal dice those that fell earlier go first. Nothing
else of the dice changes: they keep their faces and their order, and a die that is discarded is only
made negative. What is kept is the best that could have been kept.

## Main definitions

* `Keep.worth`: the order in which a selector sees the faces
* `Keep.dropped`, `Keep.spared`: the dice that are discarded, and those that are kept
* `Keep.sums`: the sums of all selections of some dice

## Main results

* `Keep.filter_discardOrder`: the order among dice that show one face
* `sum_le_sum_of_sublist`: no selection has a greater sum than the greatest items
* `DiceTerm.perm_kept`, `DiceTerm.perm_discarded`: what a roll keeps, and what it discards
* `DiceTerm.result_selects`: which dice a term keeps
-/

namespace DiceBot

/-! ## The greatest items of a list -/

/-- By how much the items of a list are greater than a bound. -/
def excess (bound : Int) (items : List Int) : Int :=
  (items.map fun a => max (a - bound) 0).sum

section Excess

variable {bound : Int} {items picked front back : List Int}

theorem excess_cons (bound a : Int) (items : List Int) :
    excess bound (a :: items) = max (a - bound) 0 + excess bound items :=
  rfl

theorem excess_of_le (h : ∀ a ∈ items, a ≤ bound) : excess bound items = 0 := by
  induction items with
  | nil => rfl
  | cons a items ih =>
    obtain ⟨ha, hitems⟩ := List.forall_mem_cons.mp h
    rw [excess_cons, ih hitems]
    omega

theorem sum_of_le (h : ∀ a ∈ items, bound ≤ a) :
    items.sum = items.length * bound + excess bound items := by
  induction items with
  | nil => simp [excess]
  | cons a items ih =>
    obtain ⟨ha, hitems⟩ := List.forall_mem_cons.mp h
    rw [List.sum_cons, ih hitems, excess_cons, List.length_cons, Nat.cast_succ, Int.add_mul]
    omega

theorem sum_le_of_sublist (h : picked.Sublist items) :
    picked.sum ≤ picked.length * bound + excess bound items := by
  induction h with
  | slnil => simp [excess]
  | cons a _ ih =>
    rw [excess_cons]
    omega
  | cons_cons a _ ih =>
    rw [List.sum_cons, excess_cons, List.length_cons, Nat.cast_succ, Int.add_mul]
    omega

/-- No selection from a list has a greater sum than as many items that are its greatest. -/
theorem sum_le_sum_of_sublist (h : picked.Sublist items) (hperm : items.Perm (front ++ back))
    (hfront : ∀ a ∈ front, a ≤ bound) (hback : ∀ a ∈ back, bound ≤ a)
    (hlength : picked.length = back.length) : picked.sum ≤ back.sum := by
  have hexcess : excess bound items = excess bound back := by
    calc excess bound items = excess bound (front ++ back) := (hperm.map _).sum_eq
      _ = excess bound front + excess bound back := by
        rw [excess, List.map_append, List.sum_append]
        rfl
      _ = excess bound back := by rw [excess_of_le hfront, Int.zero_add]
  rw [sum_of_le hback, ← hexcess, ← hlength]
  exact sum_le_of_sublist h

end Excess

namespace Keep

/-! ## What a selector prefers -/

/-- A face as a selector sees it: of two faces the one that it keeps is the greater. -/
def worth (keep : Keep) (face : Nat) : Int :=
  match keep with
  | highest => face
  | lowest => -face

/-- Whether a value is at least as good as another for a selector. -/
def Prefers (keep : Keep) (a b : Int) : Prop :=
  match keep with
  | highest => b ≤ a
  | lowest => a ≤ b

/-- Whether a sum is the best of some sums for a selector. -/
def IsBest (keep : Keep) (sums : Set Int) (sum : Int) : Prop :=
  match keep with
  | highest => IsGreatest sums sum
  | lowest => IsLeast sums sum

/-- The sums of all selections of a number of dice from some faces. -/
def sums (count : Nat) (faces : List Nat) : Set Int :=
  {sum | ∃ picked : List Nat, picked.Sublist faces ∧ picked.length = count ∧ sum = picked.sum}

variable {keep : Keep} {n : Int} {faces : List Nat} {a b : Nat × Nat}

theorem prefers_iff_worth_le {face face' : Nat} :
    keep.Prefers face face' ↔ keep.worth face' ≤ keep.worth face := by
  cases keep with
  | highest => rfl
  | lowest => exact Int.neg_le_neg_iff.symm

theorem isBest_of_forall {sums : Set Int} {sum : Int} (hmem : sum ∈ sums)
    (hbest : ∀ s ∈ sums, keep.Prefers sum s) : keep.IsBest sums sum := by
  cases keep with
  | highest => exact ⟨hmem, hbest⟩
  | lowest => exact ⟨hmem, hbest⟩

theorem sum_map_worth (keep : Keep) (faces : List Nat) :
    (faces.map keep.worth).sum = keep.worth faces.sum := by
  induction faces with
  | nil => cases keep <;> rfl
  | cons face faces ih =>
    rw [List.map_cons, List.sum_cons, ih, List.sum_cons]
    cases keep with
    | highest => exact (Int.natCast_add _ _).symm
    | lowest =>
      simp only [worth]
      omega

/-! ## The order in which dice are discarded -/

theorem discardsBefore_iff {face face' : Nat} :
    keep.discardsBefore face face' = true ↔ keep.worth face ≤ keep.worth face' := by
  cases keep <;> simp [discardsBefore, worth]

theorem discardsBefore_trans (keep : Keep) (a b c : Nat × Nat)
    (h : keep.discardsBefore a.1 b.1 = true) (h' : keep.discardsBefore b.1 c.1 = true) :
    keep.discardsBefore a.1 c.1 = true := by
  rw [discardsBefore_iff] at h h' ⊢
  exact Int.le_trans h h'

theorem discardsBefore_total (keep : Keep) (a b : Nat × Nat) :
    (keep.discardsBefore a.1 b.1 || keep.discardsBefore b.1 a.1) = true := by
  rw [Bool.or_eq_true, discardsBefore_iff, discardsBefore_iff]
  exact Int.le_total _ _

theorem perm_discardOrder (keep : Keep) (faces : List Nat) :
    (keep.discardOrder faces).Perm faces.zipIdx :=
  List.mergeSort_perm _ _

theorem pairwise_zipIdx (faces : List Nat) : faces.zipIdx.Pairwise fun a b => a.2 < b.2 := by
  rw [← List.pairwise_map, List.zipIdx_map_snd]
  exact List.pairwise_lt_range'

/-- The dice that show one face stand in the order of their fall. -/
theorem filter_discardOrder (keep : Keep) (faces : List Nat) (face : Nat) :
    (keep.discardOrder faces).filter (·.1 = face) = faces.zipIdx.filter (·.1 = face) := by
  have hequal : (faces.zipIdx.filter (·.1 = face)).Pairwise
      fun a b => keep.discardsBefore a.1 b.1 = true := by
    refine List.pairwise_of_forall_mem_list fun a ha b hb => ?_
    rw [of_decide_eq_true (List.mem_filter.mp ha).2, of_decide_eq_true (List.mem_filter.mp hb).2]
    exact discardsBefore_iff.mpr (Int.le_refl _)
  have hsublist : (faces.zipIdx.filter (·.1 = face)).Sublist (keep.discardOrder faces) :=
    List.sublist_mergeSort keep.discardsBefore_trans keep.discardsBefore_total hequal
      List.filter_sublist
  have hfilter := hsublist.filter (·.1 = face)
  simp only [List.filter_filter, Bool.and_self] at hfilter
  exact (hfilter.eq_of_length ((keep.perm_discardOrder faces).filter _).length_eq.symm).symm

/-- A die goes before another one: it is worth no more, and of equal dice it fell earlier. -/
structure Precedes (keep : Keep) (a b : Nat × Nat) : Prop where
  worth_le : keep.worth a.1 ≤ keep.worth b.1
  lt : a.1 = b.1 → a.2 < b.2

theorem pairwise_discardOrder (keep : Keep) (faces : List Nat) :
    (keep.discardOrder faces).Pairwise keep.Precedes := by
  have hsorted : (keep.discardOrder faces).Pairwise
      fun a b => keep.discardsBefore a.1 b.1 = true :=
    List.pairwise_mergeSort keep.discardsBefore_trans keep.discardsBefore_total _
  rw [List.pairwise_iff_forall_sublist] at hsorted ⊢
  intro a b hpair
  refine ⟨discardsBefore_iff.mp (hsorted hpair), fun hequal => ?_⟩
  have hfilter := hpair.filter (·.1 = b.1)
  rw [filter_discardOrder] at hfilter
  have hfell := ((pairwise_zipIdx faces).filter (·.1 = b.1)).sublist hfilter
  simpa [hequal] using hfell

/-- The dice that are discarded so that `n` of them are kept, each a face and its number. -/
def dropped (keep : Keep) (n : Int) (faces : List Nat) : List (Nat × Nat) :=
  (keep.discardOrder faces).take ((faces.length : Int) - n).toNat

/-- The dice that are kept, each a face and its number. -/
def spared (keep : Keep) (n : Int) (faces : List Nat) : List (Nat × Nat) :=
  (keep.discardOrder faces).drop ((faces.length : Int) - n).toNat

theorem dropped_append_spared (keep : Keep) (n : Int) (faces : List Nat) :
    keep.dropped n faces ++ keep.spared n faces = keep.discardOrder faces :=
  List.take_append_drop _ _

theorem perm_dropped_append_spared (keep : Keep) (n : Int) (faces : List Nat) :
    (keep.dropped n faces ++ keep.spared n faces).Perm faces.zipIdx := by
  rw [dropped_append_spared]
  exact keep.perm_discardOrder faces

theorem length_dropped (keep : Keep) (n : Int) (faces : List Nat) :
    (keep.dropped n faces).length = min faces.length ((faces.length : Int) - n).toNat := by
  rw [dropped, List.length_take, (keep.perm_discardOrder faces).length_eq, List.length_zipIdx,
    Nat.min_comm]

/-- What is discarded comes before what is kept. -/
theorem precedes_of_mem (ha : a ∈ keep.dropped n faces) (hb : b ∈ keep.spared n faces) :
    keep.Precedes a b := by
  have hpairwise := keep.pairwise_discardOrder faces
  rw [← dropped_append_spared keep n faces] at hpairwise
  exact (List.pairwise_append.mp hpairwise).2.2 a ha b hb

/-- Between the dice that are discarded and those that are kept lies the worst die that is kept. -/
theorem exists_bound (hspared : keep.spared n faces ≠ []) :
    ∃ bound, (∀ a ∈ keep.dropped n faces, keep.worth a.1 ≤ bound) ∧
      ∀ a ∈ keep.spared n faces, bound ≤ keep.worth a.1 := by
  obtain ⟨first, rest, hfirst⟩ := List.exists_cons_of_ne_nil hspared
  have hpairwise := keep.pairwise_discardOrder faces
  rw [← dropped_append_spared keep n faces, hfirst] at hpairwise
  refine ⟨keep.worth first.1, fun a ha => ?_, fun a ha => ?_⟩
  · have hmem : first ∈ keep.spared n faces := hfirst ▸ List.mem_cons_self
    exact (precedes_of_mem ha hmem).worth_le
  · rw [hfirst] at ha
    rcases List.mem_cons.mp ha with rfl | ha
    · exact Int.le_refl _
    · have hrest := (List.pairwise_cons.mp (List.pairwise_append.mp hpairwise).2.1).1
      exact (hrest a ha).worth_le

/-- No selection of as many dice is better than the dice that are kept. -/
theorem prefers_sum_spared {picked : List Nat} (h : picked.Sublist faces)
    (hlength : picked.length = (keep.spared n faces).length) :
    keep.Prefers ((keep.spared n faces).map Prod.fst).sum picked.sum := by
  rw [prefers_iff_worth_le, ← sum_map_worth, ← sum_map_worth, List.map_map]
  by_cases hspared : keep.spared n faces = []
  · rw [hspared, List.length_nil, List.length_eq_zero_iff] at hlength
    rw [hspared, hlength]
    rfl
  · obtain ⟨bound, hdropped, hspared⟩ := exists_bound hspared
    have hfaces : (faces.map keep.worth).Perm
        ((keep.dropped n faces).map (keep.worth ∘ Prod.fst) ++
          (keep.spared n faces).map (keep.worth ∘ Prod.fst)) := by
      rw [← List.map_append]
      have hall := (keep.perm_dropped_append_spared n faces).map (keep.worth ∘ Prod.fst)
      rw [← List.map_map, ← List.map_map, List.zipIdx_map_fst] at hall
      rw [← List.map_map]
      exact hall.symm
    refine sum_le_sum_of_sublist (h.map keep.worth) hfaces (List.forall_mem_map.mpr hdropped)
      (List.forall_mem_map.mpr hspared) ?_
    rw [List.length_map, List.length_map, hlength]

/-! ## The dice in the order of their fall -/

theorem eq_of_mem_zipIdx (ha : a ∈ faces.zipIdx) (hb : b ∈ faces.zipIdx) (h : a.2 = b.2) :
    a = b := by
  have hface := (List.mk_mem_zipIdx_iff_getElem?.mp ha).symm.trans
    (h ▸ List.mk_mem_zipIdx_iff_getElem?.mp hb)
  exact Prod.ext (Option.some.inj hface) h

theorem nodup_zipIdx (faces : List Nat) : faces.zipIdx.Nodup := by
  refine List.Nodup.of_map Prod.snd ?_
  rw [List.zipIdx_map_snd]
  exact List.nodup_range'

/-- A die is discarded if its number is among the numbers of the dice to discard. -/
theorem mem_discards_iff (ha : a ∈ faces.zipIdx) :
    a.2 ∈ keep.discards n faces ↔ a ∈ keep.dropped n faces := by
  constructor
  · intro h
    obtain ⟨b, hb, hnumber⟩ := List.mem_map.mp h
    have hmem := (keep.perm_dropped_append_spared n faces).subset (List.mem_append_left _ hb)
    exact eq_of_mem_zipIdx hmem ha hnumber ▸ hb
  · exact List.mem_map_of_mem

/-- The dice whose numbers are to be discarded are those that are dropped, in another order. -/
theorem perm_filter_discards (keep : Keep) (n : Int) (faces : List Nat) :
    (faces.zipIdx.filter fun a => a.2 ∈ keep.discards n faces).Perm (keep.dropped n faces) := by
  have hnodup : (keep.dropped n faces ++ keep.spared n faces).Nodup :=
    (keep.perm_dropped_append_spared n faces).nodup_iff.mpr (nodup_zipIdx faces)
  have hspared : ∀ a ∈ keep.spared n faces, ¬ decide (a ∈ keep.dropped n faces) = true := by
    intro a ha hdropped
    exact (List.nodup_append.mp hnodup).2.2 a (of_decide_eq_true hdropped) a ha rfl
  have hfilter : (faces.zipIdx.filter fun a => a.2 ∈ keep.discards n faces) =
      faces.zipIdx.filter fun a => a ∈ keep.dropped n faces :=
    List.filter_congr fun a ha => decide_eq_decide.mpr (mem_discards_iff ha)
  rw [hfilter]
  refine ((keep.perm_dropped_append_spared n faces).symm.filter _).trans (.of_eq ?_)
  rw [List.filter_append, List.filter_eq_nil_iff.mpr hspared, List.append_nil]
  exact List.filter_eq_self.mpr fun a ha => decide_eq_true ha

/-- The other dice are those that are spared. -/
theorem perm_filter_not_discards (keep : Keep) (n : Int) (faces : List Nat) :
    (faces.zipIdx.filter fun a => a.2 ∉ keep.discards n faces).Perm (keep.spared n faces) := by
  have hall := List.filter_append_perm (fun a => decide (a.2 ∈ keep.discards n faces)) faces.zipIdx
  have hdropped := (keep.perm_filter_discards n faces).append_right
    (faces.zipIdx.filter fun a => a.2 ∉ keep.discards n faces)
  refine (List.perm_append_left_iff (keep.dropped n faces)).mp (hdropped.symm.trans ?_)
  simpa only [decide_not] using hall.trans (keep.perm_dropped_append_spared n faces).symm

end Keep

namespace DiceTerm

variable {term : DiceTerm} {keep : Keep} {n : Int} {faces : List Nat} {a b : Nat × Nat}

/-! ## The values of a roll -/

/-- The value of a die, given as a face and its number: negative if the die is discarded. -/
def marked (keep : Keep) (n : Int) (faces : List Nat) (a : Nat × Nat) : Int :=
  if a.2 ∈ keep.discards n faces then -(a.1 : Int) else a.1

theorem values_of_keep (h : term.keep = some (keep, n)) (faces : List Nat) :
    term.values faces = faces.zipIdx.map (marked keep n faces) := by
  rw [values, h]
  rfl

theorem natAbs_marked (keep : Keep) (n : Int) (faces : List Nat) (a : Nat × Nat) :
    (marked keep n faces a).natAbs = a.1 := by
  unfold marked
  split
  · exact (Int.natAbs_neg _).trans (Int.natAbs_natCast _)
  · exact Int.natAbs_natCast _

/-- The sign tells the dice that are discarded from the others, as no face is zero. -/
theorem marked_lt_zero_iff (ha : 1 ≤ a.1) :
    marked keep n faces a < 0 ↔ a.2 ∈ keep.discards n faces := by
  unfold marked
  split
  · rename_i h
    exact iff_of_true (by omega) h
  · rename_i h
    exact iff_of_false (by omega) h

theorem one_le_of_mem_zipIdx (hfaces : ∀ face ∈ faces, 1 ≤ face) (ha : a ∈ faces.zipIdx) :
    1 ≤ a.1 :=
  hfaces _ (List.mem_of_getElem? (List.mk_mem_zipIdx_iff_getElem?.mp ha))

/-- The dice that a roll keeps show the faces of those that are spared, in another order. -/
theorem perm_kept (h : term.keep = some (keep, n)) (hfaces : ∀ face ∈ faces, 1 ≤ face) :
    (term.result faces).kept.Perm ((keep.spared n faces).map fun a => (a.1 : Int)) := by
  have hkept : (term.result faces).kept =
      (faces.zipIdx.filter fun a => a.2 ∉ keep.discards n faces).map (marked keep n faces) := by
    change (term.values faces).filter (0 ≤ ·) = _
    rw [values_of_keep h, List.filter_map]
    refine congrArg _ (List.filter_congr fun a ha => decide_eq_decide.mpr ?_)
    rw [← marked_lt_zero_iff (one_le_of_mem_zipIdx hfaces ha), Int.not_lt]
  rw [hkept]
  refine .trans (.of_eq (List.map_congr_left fun a ha => ?_))
    ((keep.perm_filter_not_discards n faces).map _)
  exact if_neg (of_decide_eq_true (List.mem_filter.mp ha).2)

/-- The dice that a roll discards show the faces of those that are dropped, in another order. -/
theorem perm_discarded (h : term.keep = some (keep, n)) (hfaces : ∀ face ∈ faces, 1 ≤ face) :
    (term.result faces).discarded.Perm ((keep.dropped n faces).map fun a => (a.1 : Int)) := by
  have hdiscarded : (term.result faces).discarded =
      (faces.zipIdx.filter fun a => a.2 ∈ keep.discards n faces).map
        fun a => -marked keep n faces a := by
    change ((term.values faces).filter (· < 0)).map (- ·) = _
    rw [values_of_keep h, List.filter_map, List.map_map]
    refine congrArg _ (List.filter_congr fun a ha => decide_eq_decide.mpr ?_)
    exact marked_lt_zero_iff (one_le_of_mem_zipIdx hfaces ha)
  rw [hdiscarded]
  refine .trans (.of_eq (List.map_congr_left fun a ha => ?_))
    ((keep.perm_filter_discards n faces).map _)
  rw [marked, if_pos (of_decide_eq_true (List.mem_filter.mp ha).2), Int.neg_neg]

theorem prefers_of_mem (h : term.keep = some (keep, n)) (hfaces : ∀ face ∈ faces, 1 ≤ face)
    {k d : Int} (hk : k ∈ (term.result faces).kept) (hd : d ∈ (term.result faces).discarded) :
    keep.Prefers k d := by
  obtain ⟨a, ha, rfl⟩ := List.mem_map.mp ((perm_kept h hfaces).subset hk)
  obtain ⟨b, hb, rfl⟩ := List.mem_map.mp ((perm_discarded h hfaces).subset hd)
  exact Keep.prefers_iff_worth_le.mpr (Keep.precedes_of_mem hb ha).worth_le

/-- Of equal dice those that fell earlier are discarded first. -/
theorem pairwise_values (h : term.keep = some (keep, n)) (hfaces : ∀ face ∈ faces, 1 ≤ face) :
    (term.values faces).Pairwise fun v w => v.natAbs = w.natAbs → w < 0 → v < 0 := by
  rw [values_of_keep h, List.pairwise_map]
  refine (Keep.pairwise_zipIdx faces).imp_of_mem fun {a b} ha hb hlt hequal hdiscarded => ?_
  rw [natAbs_marked, natAbs_marked] at hequal
  rw [marked_lt_zero_iff (one_le_of_mem_zipIdx hfaces hb), Keep.mem_discards_iff hb] at hdiscarded
  rw [marked_lt_zero_iff (one_le_of_mem_zipIdx hfaces ha), Keep.mem_discards_iff ha]
  -- if the earlier die were kept, the later one would have been discarded before it
  rcases List.mem_append.mp ((keep.perm_dropped_append_spared n faces).mem_iff.mpr ha) with
    hdropped | hspared
  · exact hdropped
  · exact absurd ((Keep.precedes_of_mem hdiscarded hspared).lt hequal.symm) hlt.not_gt

/-- The total is the best of the sums of as many dice as are kept. -/
theorem isBest_total (h : term.keep = some (keep, n)) (hfaces : ∀ face ∈ faces, 1 ≤ face) :
    keep.IsBest (Keep.sums (term.result faces).kept.length faces) (term.result faces).total := by
  have hperm := perm_kept h hfaces
  have hlength : (term.result faces).kept.length = (keep.spared n faces).length := by
    rw [hperm.length_eq, List.length_map]
  have htotal : (term.result faces).total = (((keep.spared n faces).map Prod.fst).sum : Nat) := by
    change (term.result faces).kept.sum = _
    refine hperm.sum_eq.trans (.trans ?_ (Keep.sum_map_worth .highest _))
    rw [List.map_map]
    rfl
  rw [hlength, htotal]
  refine Keep.isBest_of_forall ?_ ?_
  · refine ⟨(faces.zipIdx.filter fun a => a.2 ∉ keep.discards n faces).map Prod.fst, ?_, ?_, ?_⟩
    · have hsublist := (List.filter_sublist (l := faces.zipIdx)
        (p := fun a => a.2 ∉ keep.discards n faces)).map Prod.fst
      rwa [List.zipIdx_map_fst] at hsublist
    · rw [List.length_map, (keep.perm_filter_not_discards n faces).length_eq]
    · rw [((keep.perm_filter_not_discards n faces).map Prod.fst).sum_eq]
  · rintro _ ⟨picked, hsublist, hpicked, rfl⟩
    exact Keep.prefers_sum_spared hsublist hpicked

/-- **A term keeps the best dice.** The values show the dice as they fell. Without a selector none
is discarded. With one as many are discarded as are not to be kept, no more than there are and no
less than none; every die that is kept is at least as good as every die that is discarded; of equal
dice those that fell earlier are discarded first; and the total is the greatest sum of as many dice
as are kept, or for the selector of the lowest dice the least one. -/
theorem result_selects (hcount : faces.length = term.count) (hfaces : ∀ face ∈ faces, 1 ≤ face) :
    (term.result faces).values.map Int.natAbs = faces ∧
    (term.keep = none → (term.result faces).discarded = []) ∧
    ∀ keep n, term.keep = some (keep, n) →
      (term.result faces).discarded.length = min term.count ((term.count : Int) - n).toNat ∧
      (∀ k ∈ (term.result faces).kept, ∀ d ∈ (term.result faces).discarded, keep.Prefers k d) ∧
      ((term.result faces).values.Pairwise fun v w => v.natAbs = w.natAbs → w < 0 → v < 0) ∧
      keep.IsBest (Keep.sums (term.result faces).kept.length faces) (term.result faces).total := by
  refine ⟨map_natAbs_values term faces, fun hnone => ?_, fun keep n h => ⟨?_, ?_, ?_, ?_⟩⟩
  · have hvalues : (term.result faces).values = faces.map Int.ofNat := by
      change term.values faces = _
      rw [values, hnone]
    rw [Roll.discarded, hvalues, List.map_eq_nil_iff, List.filter_eq_nil_iff]
    intro v hv
    obtain ⟨face, -, rfl⟩ := List.mem_map.mp hv
    simp
  · rw [(perm_discarded h hfaces).length_eq, List.length_map, Keep.length_dropped, hcount]
  · exact fun k hk d hd => prefers_of_mem h hfaces hk hd
  · exact pairwise_values h hfaces
  · exact isBest_total h hfaces

/-- Five dice of which the two lowest are kept. -/
def twoLowest : DiceTerm :=
  ⟨5, 6, "5d6kl2", 0, some (.lowest, 2), []⟩

/-- Of three equal dice one is kept, the last that fell. -/
theorem result_selects_twoLowest :
    [3, 1, 3, 6, 3].length = twoLowest.count ∧ (∀ face ∈ [3, 1, 3, 6, 3], 1 ≤ face) ∧
      (twoLowest.result [3, 1, 3, 6, 3]).discarded.length = 3 ∧
      IsLeast (Keep.sums (twoLowest.result [3, 1, 3, 6, 3]).kept.length [3, 1, 3, 6, 3])
        (twoLowest.result [3, 1, 3, 6, 3]).total := by
  have hcount : [3, 1, 3, 6, 3].length = twoLowest.count := rfl
  have hfaces : ∀ face ∈ [3, 1, 3, 6, 3], 1 ≤ face := by decide
  obtain ⟨-, -, hselects⟩ := result_selects hcount hfaces
  obtain ⟨hlength, -, -, hbest⟩ := hselects .lowest 2 rfl
  exact ⟨hcount, hfaces, hlength, hbest⟩

end DiceTerm

end DiceBot
