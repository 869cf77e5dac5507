import DiceBot.Dice.Shaker
import DiceBot.Dice.Term

/-!
# Rolls

What became of one dice term. The values stand in the order in which the dice fell; a die that was
discarded is negative. The dice are sorted by their faces to find those to discard, and the sort
leaves equal dice in the order in which they fell.

## Main definitions

* `Roll`: the result of a dice term
* `Keep.discardOrder`: the dice in the order in which they are discarded
* `DiceTerm.result`: the roll that some faces make
* `DiceTerm.rollAll`: the rolls of several terms, one after another
-/

namespace DiceBot

/-- The result of a dice term. -/
structure Roll where
  /-- The term as it is written. -/
  text : Text
  /-- The arithmetic written directly behind the term. -/
  suffix : Text
  /-- The dice in the order in which they fell, discarded ones negative. -/
  values : List Int
  /-- The sum of the dice that are kept. -/
  total : Int
  /-- Whether a kept die of twenty sides shows its highest face. -/
  criticalSuccess : Bool
  /-- Whether a kept die of twenty sides shows its lowest face. -/
  criticalFailure : Bool
  /-- The key by which the rolls of a command are ordered: the place of the term. -/
  place : Int
deriving DecidableEq

namespace Roll

/-- The dice that are kept. -/
def kept (r : Roll) : List Int :=
  r.values.filter (0 ≤ ·)

/-- The dice that are discarded, as they fell. -/
def discarded (r : Roll) : List Int :=
  (r.values.filter (· < 0)).map (- ·)

end Roll

namespace Keep

/-- Whether a face may be discarded before another. -/
def discardsBefore (keep : Keep) (face other : Nat) : Bool :=
  match keep with
  | highest => face ≤ other
  | lowest => other ≤ face

/-- The dice, each a face and its number, in the order in which they are discarded. -/
def discardOrder (keep : Keep) (faces : List Nat) : List (Nat × Nat) :=
  faces.zipIdx.mergeSort fun a b => keep.discardsBefore a.1 b.1

/-- The numbers of the dice to discard so that `n` of them are kept. -/
def discards (keep : Keep) (n : Int) (faces : List Nat) : List Nat :=
  ((keep.discardOrder faces).take ((faces.length : Int) - n).toNat).map (·.2)

end Keep

namespace DiceTerm

/-- The values of some faces: a die that the term does not keep is negative. -/
def values (term : DiceTerm) (faces : List Nat) : List Int :=
  match term.keep with
  | none => faces.map Int.ofNat
  | some (keep, n) =>
    let discards := keep.discards n faces
    faces.zipIdx.map fun (face, i) => if i ∈ discards then -(face : Int) else face

/-- The roll that some faces make. -/
def result (term : DiceTerm) (faces : List Nat) : Roll :=
  let values := term.values faces
  let kept := values.filter (0 ≤ ·)
  { text := term.text
    suffix := term.suffix
    values
    total := kept.foldr (· + ·) 0
    criticalSuccess := term.sides = 20 && 20 ∈ kept
    criticalFailure := term.sides = 20 && 1 ∈ kept
    place := term.position }

/-- The roll of a term whose first die has a given number in the sequence of rolls. -/
def roll (term : DiceTerm) (shaker : Shaker) (index : Nat) : Roll :=
  term.result (shaker.faces index term.count term.sides)

/-- The rolls of several terms, one after another. -/
def rollAll (shaker : Shaker) (index : Nat) : List DiceTerm → List Roll
  | [] => []
  | term :: rest => term.roll shaker index :: rollAll shaker (index + term.count) rest

end DiceTerm

end DiceBot
