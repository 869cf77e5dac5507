import DiceBot.Text.Printable

/-!
# Quoted texts

Error messages show a piece of input between quotes, on one line: what is not printable is written
as an escape, so that the reader sees every code point and no line is broken.

## Main definitions

* `Text.quoteMark`: the quotation mark that a text is put between
* `CodePoint.quoted`: what stands for one code point between quotes
* `Text.quoted`: a text between quotes
-/

namespace DiceBot

/-- A number in lower-case hexadecimal digits, padded with zeros to a width. -/
def Text.hex (width n : Nat) : Text :=
  let digits := (Nat.toDigits 16 n).map CodePoint.ofChar
  List.replicate (width - digits.length) (CodePoint.ofChar '0') ++ digits

/-- A text stands between single marks, unless it holds a single mark and no double one. -/
def Text.quoteMark (t : Text) : CodePoint :=
  if t.contains (CodePoint.ofChar '\'') && !t.contains (CodePoint.ofChar '"') then '"' else '\''

/-- What stands for a code point between two marks: the mark and the backslash behind a backslash,
line ends and tabs by their letters, other unprintable code points by their number. -/
def CodePoint.quoted (mark c : CodePoint) : Text :=
  if c = mark ∨ c = '\\' then ['\\', c]
  else if c = '\n' then "\\n"
  else if c = '\r' then "\\r"
  else if c = '\t' then "\\t"
  else if c.isPrintable then [c]
  else if c.toNat < 0x100 then "\\x" ++ Text.hex 2 c.toNat
  else if c.toNat < 0x10000 then "\\u" ++ Text.hex 4 c.toNat
  else "\\U" ++ Text.hex 8 c.toNat

/-- A text between quotation marks. -/
def Text.quoted (t : Text) : Text :=
  let mark := t.quoteMark
  mark :: t.flatMap (CodePoint.quoted mark) ++ [mark]

end DiceBot
