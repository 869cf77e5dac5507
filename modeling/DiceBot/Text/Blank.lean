import DiceBot.Text.Basic

/-!
# Blanks

The code points that count as white space: the Unicode property White_Space and the information
separators U+001C to U+001F.

## Main definitions

* `CodePoint.isBlank`: white space
* `Text.trimmed`: a text without the blanks at its ends
-/

namespace DiceBot

/-- The blanks, as closed ranges in ascending order. -/
def blankRanges : List (Nat × Nat) :=
  [(0x9, 0xD), (0x1C, 0x20), (0x85, 0x85), (0xA0, 0xA0), (0x1680, 0x1680), (0x2000, 0x200A),
   (0x2028, 0x2029), (0x202F, 0x202F), (0x205F, 0x205F), (0x3000, 0x3000)]

/-- White space. -/
def CodePoint.isBlank (c : CodePoint) : Bool :=
  c.isIn blankRanges

/-- A text without the blanks at its ends. -/
def Text.trimmed (t : Text) : Text :=
  ((t.dropWhile CodePoint.isBlank).reverse.dropWhile CodePoint.isBlank).reverse

end DiceBot
