import DiceBot.Proofs.Dice.Halves

/-!
# Critical rolls

A roll is critical by the dice that it keeps, and which of several equal dice those are is hidden
in the sort. Still the faces alone decide. The face that a selector likes best is kept as soon as
anything is kept and the face has fallen at all. The face that it likes least is kept only when it
has fallen more often than dice are discarded, since it is discarded before everything else.

## Main results

* `Keep.mem_spared_iff_of_best`, `Keep.mem_spared_iff_of_worst`: whether the extreme faces are kept
* `DiceTerm.mem_kept_iff`: the faces that a roll keeps
* `DiceTerm.roll_critical_iff`: when a roll is critical
-/

namespace DiceBot

namespace Keep

variable {keep : Keep} {n : Int} {faces : List Nat} {face : Nat}

/-! ## The extreme faces -/

theorem perm_map_fst_dropped_append_spared (keep : Keep) (n : Int) (faces : List Nat) :
    ((keep.dropped n faces).map Prod.fst ++ (keep.spared n faces).map Prod.fst).Perm faces := by
  rw [← List.map_append, dropped_append_spared]
  exact keep.perm_map_fst_discardOrder faces

theorem worth_le_of_mem_map_fst {face' : Nat} (h : face ∈ (keep.dropped n faces).map Prod.fst)
    (h' : face' ∈ (keep.spared n faces).map Prod.fst) : keep.worth face ≤ keep.worth face' := by
  obtain ⟨a, ha, rfl⟩ := List.mem_map.mp h
  obtain ⟨b, hb, rfl⟩ := List.mem_map.mp h'
  exact (precedes_of_mem ha hb).worth_le

/-- The best face is kept if it has fallen and anything is kept. -/
theorem mem_spared_iff_of_best (hbest : ∀ face' ∈ faces, keep.worth face' ≤ keep.worth face) :
    face ∈ (keep.spared n faces).map Prod.fst ↔ keep.spared n faces ≠ [] ∧ face ∈ faces := by
  have hperm := keep.perm_map_fst_dropped_append_spared n faces
  constructor
  · intro h
    refine ⟨?_, hperm.subset (List.mem_append_right _ h)⟩
    intro hnil
    rw [hnil] at h
    cases h
  · rintro ⟨hspared, hface⟩
    rcases List.mem_append.mp (hperm.symm.subset hface) with hdropped | hmem
    · obtain ⟨a, ha⟩ := List.exists_mem_of_ne_nil _ hspared
      have hmem := List.mem_map_of_mem (f := Prod.fst) ha
      have hle := hbest _ (hperm.subset (List.mem_append_right _ hmem))
      rwa [worth_injective (Int.le_antisymm (worth_le_of_mem_map_fst hdropped hmem) hle)]
    · exact hmem

/-- The worst face is kept if it has fallen more often than dice are discarded. -/
theorem mem_spared_iff_of_worst (hworst : ∀ face' ∈ faces, keep.worth face ≤ keep.worth face') :
    face ∈ (keep.spared n faces).map Prod.fst ↔
      (keep.dropped n faces).length < faces.count face := by
  have hperm := keep.perm_map_fst_dropped_append_spared n faces
  have hcount := hperm.count_eq face
  rw [List.count_append] at hcount
  constructor
  · intro h
    have hall : ∀ face' ∈ (keep.dropped n faces).map Prod.fst, face = face' := fun face' h' => by
      have hle := hworst _ (hperm.subset (List.mem_append_left _ h'))
      exact worth_injective (Int.le_antisymm hle (worth_le_of_mem_map_fst h' h))
    have hdropped := List.count_eq_length.mpr hall
    have hspared := List.count_pos_iff.mpr h
    rw [List.length_map] at hdropped
    omega
  · intro h
    have hdropped := List.count_le_length (a := face) (l := (keep.dropped n faces).map Prod.fst)
    rw [List.length_map] at hdropped
    exact List.count_pos_iff.mp (by omega)

/-! ## How many dice are kept -/

theorem length_dropped_natCast (keep : Keep) (k : Nat) (faces : List Nat) :
    (keep.dropped k faces).length = faces.length - min faces.length k := by
  rw [length_dropped]
  omega

theorem spared_ne_nil_iff (keep : Keep) (k : Nat) (faces : List Nat) :
    keep.spared k faces ≠ [] ↔ 1 ≤ min faces.length k := by
  have hlength := (keep.perm_map_fst_dropped_append_spared k faces).length_eq
  rw [List.length_append, List.length_map, List.length_map, length_dropped_natCast] at hlength
  rw [← List.length_pos_iff]
  omega

end Keep

namespace DiceTerm

variable {term : DiceTerm} {keep : Keep} {n : Int} {faces : List Nat}

/-! ## The dice that decide -/

/-- A face is kept if a die that is spared shows it. -/
theorem mem_kept_iff (h : term.keep = some (keep, n)) (hfaces : ∀ face ∈ faces, 1 ≤ face)
    (face : Nat) :
    (face : Int) ∈ (term.result faces).kept ↔ face ∈ (keep.spared n faces).map Prod.fst := by
  rw [(perm_kept h hfaces).mem_iff, List.mem_map, List.mem_map]
  simp only [Int.natCast_inj]

/-- Without a selector all faces are kept. -/
theorem mem_kept_iff_of_none (h : term.keep = none) (faces : List Nat) (face : Nat) :
    (face : Int) ∈ (term.result faces).kept ↔ face ∈ faces := by
  have hvalues : (term.result faces).values = faces.map Int.ofNat := by
    change term.values faces = _
    rw [values, h]
  rw [Roll.kept, hvalues, List.mem_filter, List.mem_map]
  simp

theorem criticalSuccess_iff (hsides : term.sides = 20) (faces : List Nat) :
    (term.result faces).criticalSuccess = true ↔ ((20 : Nat) : Int) ∈ (term.result faces).kept := by
  change (term.sides = 20 && (20 : Int) ∈ (term.result faces).kept : Bool) = true ↔ _
  simp [hsides]

theorem criticalFailure_iff (hsides : term.sides = 20) (faces : List Nat) :
    (term.result faces).criticalFailure = true ↔ ((1 : Nat) : Int) ∈ (term.result faces).kept := by
  change (term.sides = 20 && (1 : Int) ∈ (term.result faces).kept : Bool) = true ↔ _
  simp [hsides]

theorem not_critical_of_sides_ne (hsides : term.sides ≠ 20) (faces : List Nat) :
    (term.result faces).criticalSuccess = false ∧ (term.result faces).criticalFailure = false :=
  ⟨by simp [result, hsides], by simp [result, hsides]⟩

/-! ## Critical rolls -/

/-- **When a roll is critical.** Only dice of twenty sides make a critical roll. Without a selector
a success is a 20 among them and a failure a 1. If the `k` highest are kept, and these are `m` of
all dice, then a success is a 20 unless nothing is kept, and a failure is more dice of 1 than are
discarded; if the lowest are kept, it is the other way round. -/
theorem roll_critical_iff (term : DiceTerm) (shaker : Shaker) (index : Nat) :
    let faces := shaker.faces index term.count term.sides
    let roll := term.roll shaker index
    (term.sides ≠ 20 → roll.criticalSuccess = false ∧ roll.criticalFailure = false) ∧
    (term.sides = 20 →
      (term.keep = none →
        (roll.criticalSuccess = true ↔ 20 ∈ faces) ∧
        (roll.criticalFailure = true ↔ 1 ∈ faces)) ∧
      ∀ k : Nat,
        let m := min term.count k
        (term.keep = some (.highest, (k : Int)) →
          (roll.criticalSuccess = true ↔ 1 ≤ m ∧ 20 ∈ faces) ∧
          (roll.criticalFailure = true ↔ term.count - m < faces.count 1)) ∧
        (term.keep = some (.lowest, (k : Int)) →
          (roll.criticalFailure = true ↔ 1 ≤ m ∧ 1 ∈ faces) ∧
          (roll.criticalSuccess = true ↔ term.count - m < faces.count 20))) := by
  intro faces roll
  refine ⟨fun hsides => not_critical_of_sides_ne hsides faces, fun hsides => ?_⟩
  have hlength : faces.length = term.count := shaker.length_faces index term.count term.sides
  have hrange : ∀ face ∈ faces, 1 ≤ face ∧ face ≤ 20 := by
    intro face hface
    rw [← hsides]
    exact Shaker.mem_faces (by omega) hface
  have hfaces : ∀ face ∈ faces, 1 ≤ face := fun face hface => (hrange face hface).1
  have hsuccess := criticalSuccess_iff hsides faces
  have hfailure := criticalFailure_iff hsides faces
  refine ⟨fun hkeep => ?_, fun k => ⟨fun hkeep => ?_, fun hkeep => ?_⟩⟩
  · rw [mem_kept_iff_of_none hkeep] at hsuccess hfailure
    exact ⟨hsuccess, hfailure⟩
  · rw [mem_kept_iff hkeep hfaces] at hsuccess hfailure
    rw [← hlength, ← Keep.length_dropped_natCast .highest, ← Keep.spared_ne_nil_iff .highest]
    refine ⟨hsuccess.trans (Keep.mem_spared_iff_of_best fun face hface => ?_),
      hfailure.trans (Keep.mem_spared_iff_of_worst fun face hface => ?_)⟩
    · exact Int.ofNat_le.mpr (hrange face hface).2
    · exact Int.ofNat_le.mpr (hrange face hface).1
  · rw [mem_kept_iff hkeep hfaces] at hsuccess hfailure
    rw [← hlength, ← Keep.length_dropped_natCast .lowest, ← Keep.spared_ne_nil_iff .lowest]
    refine ⟨hfailure.trans (Keep.mem_spared_iff_of_best fun face hface => ?_),
      hsuccess.trans (Keep.mem_spared_iff_of_worst fun face hface => ?_)⟩
    · exact Int.neg_le_neg (Int.ofNat_le.mpr (hrange face hface).1)
    · exact Int.neg_le_neg (Int.ofNat_le.mpr (hrange face hface).2)

/-- Five dice of twenty sides of which the two lowest are kept. -/
def twoLowestOfTwenty : DiceTerm :=
  ⟨5, 20, "5d20kl2", 0, some (.lowest, 2), []⟩

/-- Five dice that show 20, 20, 7, 20 and 20. -/
def fourTwenties : Shaker :=
  .ofStream fun i => [19, 19, 6, 19, 19].getD i 0

/-- Three dice of 20 are discarded and one is kept beside the 7. -/
theorem roll_critical_fourTwenties :
    twoLowestOfTwenty.sides = 20 ∧ twoLowestOfTwenty.keep = some (.lowest, ((2 : Nat) : Int)) ∧
      (fourTwenties.faces 0 5 20).count 20 = 4 ∧
      (twoLowestOfTwenty.roll fourTwenties 0).criticalSuccess = true ∧
      ¬ (twoLowestOfTwenty.roll fourTwenties 0).criticalFailure = true := by
  have hcount : (fourTwenties.faces 0 5 20).count 20 = 4 := by decide
  obtain ⟨hfailure, hsuccess⟩ :=
    ((roll_critical_iff twoLowestOfTwenty fourTwenties 0).2 rfl).2 2 |>.2 rfl
  refine ⟨rfl, rfl, hcount, hsuccess.mpr (by decide), fun h => ?_⟩
  exact absurd (hfailure.mp h).2 (by decide)

end DiceTerm

end DiceBot
