import DiceBot.Settings.Basic
import DiceBot.Text.Blank
import DiceBot.Text.Numeral
import DiceBot.Text.Quoted

/-!
# Channels of the environment

The environment may allow channels beside those of the settings, in one variable that separates
their numbers by commas. A part that does not look like a number is skipped. Signs that stand for
digits look like a number but are none, and so do information separators around digits, which are
blanks everywhere else.

## Main definitions

* `Settings.readChannel`: the channel that a part names
* `Settings.readChannels`: the channels that a variable names
* `Settings.Flaw.message`: the wording of a flaw in the variable
-/

namespace DiceBot

namespace Settings

/-- Whether a part of the variable looks like a number. -/
def looksLikeChannel (part : Text) : Bool :=
  part.trimmed ≠ [] && part.trimmed.all CodePoint.isDigitLike

/-- The blanks that may stand around the number of a channel. -/
def isChannelBlank (c : CodePoint) : Bool :=
  c.isBlank && !(0x1C ≤ c.toNat && c.toNat ≤ 0x1F)

/-- The channel that a part of the variable names. -/
def readChannel (part : Text) : Except Flaw Int :=
  let numeral := part.dropWhile isChannelBlank
  let digits := numeral.takeWhile CodePoint.isDigit
  let behind := numeral.dropWhile CodePoint.isDigit
  if maxNumeralDigits < digits.length then .error (.channelTooLong digits.length)
  else if digits ≠ [] ∧ behind.all isChannelBlank then .ok (Text.digitsValue digits : Int)
  else .error (.notChannel part)

/-- The channels that a variable names. -/
def readChannels (value : Text) : Except Flaw (List Int) :=
  ((Text.splitOn ',' value).filter looksLikeChannel).mapM readChannel

/-- The wording of a flaw in the variable; other flaws have none. -/
def Flaw.message : Flaw → Text
  | .notChannel entry =>
    "invalid literal for int() with base 10: " ++ (Text.quoted entry).take 200
  | .channelTooLong digits =>
    "Exceeds the limit (" ++ Text.natural maxNumeralDigits
      ++ " digits) for integer string conversion: value has " ++ Text.natural digits
      ++ " digits; use sys.set_int_max_str_digits() to increase the limit"
  | _ => []

end Settings

end DiceBot
