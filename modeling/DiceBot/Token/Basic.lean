import DiceBot.Text.Basic

/-!
# Tokens

The lexemes of roll and arithmetic expressions, and tokens: lexemes at their place in a text.

## Main definitions

* `Sign`, `Scaling`: the operators of the two precedences
* `Lexeme`: a number, a dice term, an operator or a parenthesis
* `Piece`: a lexeme or a run of blanks
* `Token`: a lexeme and its position
* `placed`: the tokens of a sequence of pieces
-/

namespace DiceBot

/-- The operators that add, also written before an operand. -/
inductive Sign where
  | plus
  | minus
deriving DecidableEq

/-- The operators that multiply; they bind more tightly than signs between operands. -/
inductive Scaling where
  | times
  | over
deriving DecidableEq

/-- The character of a sign. -/
def Sign.character : Sign → CodePoint
  | .plus => '+'
  | .minus => '-'

/-- The character of a scaling. -/
def Scaling.character : Scaling → CodePoint
  | .times => '*'
  | .over => '/'

/-- What an expression is written with. -/
inductive Lexeme where
  /-- A number, with or without decimals. -/
  | number (text : Text)
  /-- A dice term, such as `2d20kh1`. -/
  | dice (text : Text)
  /-- `+` or `-`. -/
  | sign (s : Sign)
  /-- `*` or `/`. -/
  | scaling (s : Scaling)
  /-- `(` -/
  | opening
  /-- `)` -/
  | closing
deriving DecidableEq

namespace Lexeme

/-- The text of a lexeme. -/
def text : Lexeme → Text
  | number t => t
  | dice t => t
  | sign s => [s.character]
  | scaling s => [s.character]
  | opening => ['(']
  | closing => [')']

/-- Whether a lexeme is a dice term. -/
def isDice : Lexeme → Bool
  | dice _ => true
  | _ => false

/-- Whether a lexeme is an operator. -/
def isOperator : Lexeme → Bool
  | sign _ => true
  | scaling _ => true
  | _ => false

/-- Whether a lexeme is a number. -/
def isNumber : Lexeme → Bool
  | number _ => true
  | _ => false

/-- The lexeme of one character that an operator or a parenthesis is. -/
def ofMark? (c : CodePoint) : Option Lexeme :=
  if c = '+' then some (sign .plus)
  else if c = '*' then some (scaling .times)
  else if c = '/' then some (scaling .over)
  else if c = '-' then some (sign .minus)
  else if c = '(' then some opening
  else if c = ')' then some closing
  else none

end Lexeme

/-- What an expression's text is cut into. -/
inductive Piece where
  /-- A lexeme. -/
  | lexeme (l : Lexeme)
  /-- A run of blanks, which only separates. -/
  | blanks (run : Text)
deriving DecidableEq

/-- The text of a piece. -/
def Piece.text : Piece → Text
  | .lexeme l => l.text
  | .blanks run => run

/-- A lexeme at its place in a text. -/
structure Token where
  /-- What stands there. -/
  lexeme : Lexeme
  /-- The number of code points before it. -/
  position : Nat
deriving DecidableEq

namespace Token

/-- The text of a token. -/
def text (t : Token) : Text :=
  t.lexeme.text

/-- The number of code points up to the end of a token. -/
def stop (t : Token) : Nat :=
  t.position + t.text.length

end Token

/-- The tokens of a sequence of pieces that begins at a position. -/
def placed (position : Nat) : List Piece → List Token
  | [] => []
  | .lexeme l :: rest => ⟨l, position⟩ :: placed (position + l.text.length) rest
  | .blanks run :: rest => placed (position + run.length) rest

end DiceBot
