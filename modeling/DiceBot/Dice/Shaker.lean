/-!
# Shakers

Where the faces of dice come from. A shaker fixes the face of every die that will ever be rolled,
by its number in the sequence of rolls and by its sides; whatever is said of all shakers holds for
every way the dice may fall.

## Main definitions

* `Shaker`: the faces of all dice to come
* `Shaker.ofStream`: a shaker that reads its faces off a stream of numbers
* `Shaker.ofSeed`: a shaker whose faces look random
* `Shaker.faces`: the faces of the next dice
-/

namespace DiceBot

/-- The faces of all dice to come. -/
structure Shaker where
  /-- The face of the die with a given number, counted from zero, and a given number of sides. -/
  face : (index sides : Nat) → Nat
  /-- Faces are counted from one. -/
  one_le_face : ∀ index sides, 0 < sides → 1 ≤ face index sides
  /-- No face lies beyond the sides. -/
  face_le : ∀ index sides, 0 < sides → face index sides ≤ sides

namespace Shaker

/-- The shaker whose dice show the numbers of a stream, counted from zero and reduced to the
sides. -/
def ofStream (stream : Nat → Nat) : Shaker where
  face index sides := 1 + stream index % sides
  one_le_face _ _ _ := Nat.le_add_right ..
  face_le index sides h := by
    have := Nat.mod_lt (stream index) h
    omega

/-- A number without any visible relation to its neighbours, so that counting on from a seed gives
numbers that look random. -/
def scrambled (n : UInt64) : UInt64 :=
  let a := (n ^^^ (n >>> 30)) * 0xBF58476D1CE4E5B9
  let b := (a ^^^ (a >>> 27)) * 0x94D049BB133111EB
  b ^^^ (b >>> 31)

/-- The shaker of a seed. -/
def ofSeed (seed : UInt64) : Shaker :=
  ofStream fun k => (scrambled (seed + 0x9E3779B97F4A7C15 * UInt64.ofNat (k + 1))).toNat

/-- The faces of the next dice, all with the same number of sides. -/
def faces (shaker : Shaker) (index count sides : Nat) : List Nat :=
  (List.range count).map fun i => shaker.face (index + i) sides

theorem length_faces (shaker : Shaker) (index count sides : Nat) :
    (shaker.faces index count sides).length = count := by
  simp [faces]

theorem mem_faces {shaker : Shaker} {index count sides face : Nat} (hs : 0 < sides)
    (h : face ∈ shaker.faces index count sides) : 1 ≤ face ∧ face ≤ sides := by
  simp only [faces, List.mem_map] at h
  obtain ⟨i, _, rfl⟩ := h
  exact ⟨shaker.one_le_face _ _ hs, shaker.face_le _ _ hs⟩

end Shaker

end DiceBot
