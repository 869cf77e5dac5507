import DiceBot.Decimal.Notation
import DiceBot.Json.Basic
import DiceBot.Text.Numeral
import DiceBot.Text.Quoted

/-!
# Writing JSON

A value is written on one line in ASCII, for exchange, or indented, for a reader. The indented form
is produced in chunks, since a writer that fails in the middle has written the chunks before.

## Main definitions

* `Json.line`: a value on one line, everything beyond ASCII escaped
* `Json.chunks`: the indented form in the chunks in which it is written
-/

namespace DiceBot

namespace Json

/-- A double as JSON; infinities and the undefined number have words. -/
def floatText (x : Float) : Text :=
  match Extent.ofFloat x with
  | .finite _ => Text.float x
  | .infinite => if floatIsNegative x then "-Infinity" else "Infinity"
  | .undefined => "NaN"

/-- What has to stand for a code point inside a string, if it cannot stand for itself. -/
def escape? (c : CodePoint) : Option Text :=
  if c = '"' then some "\\\""
  else if c = '\\' then some "\\\\"
  else if c = '\n' then some "\\n"
  else if c = '\r' then some "\\r"
  else if c = '\t' then some "\\t"
  else if c = '\x08' then some "\\b"
  else if c = '\x0c' then some "\\f"
  else if c.toNat < 0x20 then some ("\\u" ++ Text.hex 4 c.toNat)
  else none

/-- What stands for a code point in a string of ASCII; beyond the first plane it is a pair. -/
def asciiPart (c : CodePoint) : Text :=
  match escape? c with
  | some t => t
  | none =>
    let n := c.toNat
    if n < 0x7F then [c]
    else if n < 0x10000 then "\\u" ++ Text.hex 4 n
    else
      "\\u" ++ Text.hex 4 (0xD800 + (n - 0x10000) / 0x400)
        ++ ("\\u" ++ Text.hex 4 (0xDC00 + (n - 0x10000) % 0x400))

/-- A string in ASCII. -/
def asciiString (t : Text) : Text :=
  CodePoint.ofChar '"' :: t.flatMap asciiPart ++ [CodePoint.ofChar '"']

/-- A string in which only what must be is escaped. -/
def string (t : Text) : Text :=
  CodePoint.ofChar '"' :: t.flatMap (fun c => (escape? c).getD [c]) ++ [CodePoint.ofChar '"']

mutual

/-- A value on one line, everything beyond ASCII escaped. -/
def line : Json → Text
  | null => "null"
  | bool true => "true"
  | bool false => "false"
  | integer n => Text.integer n
  | float x => floatText x
  | text t => asciiString t
  | array items => CodePoint.ofChar '[' :: Text.joined ", " (lineItems items) ++ "]"
  | object members => CodePoint.ofChar '{' :: Text.joined ", " (lineMembers members) ++ "\x7d"

/-- The items of an array, each on one line. -/
def lineItems : List Json → List Text
  | [] => []
  | j :: rest => j.line :: lineItems rest

/-- The members of an object, each on one line. -/
def lineMembers : List (Text × Json) → List Text
  | [] => []
  | (name, j) :: rest => (asciiString name ++ ": " ++ j.line) :: lineMembers rest

end

/-- A line end and the indentation of a depth. -/
def newline (depth : Nat) : Text :=
  CodePoint.ofChar '\n' :: List.replicate (2 * depth) (CodePoint.ofChar ' ')

/-- The text of a value that is written in one chunk, or why it cannot be written. -/
def plainChunk : Json → Except Fault Text
  | null => .ok "null"
  | bool true => .ok "true"
  | bool false => .ok "false"
  | integer n => Text.writeInteger n
  | float x => .ok (floatText x)
  | text t => .ok (string t)
  | array _ => .ok "[]"
  | object _ => .ok "\x7b\x7d"

mutual

/-- The chunks of a value that begins behind `lead`, at a depth of indentation; a chunk that cannot
be made is a fault. What leads a plain value is one chunk with it. -/
def chunks (depth : Nat) (lead : Text) : Json → List (Except Fault Text)
  | array (j :: rest) =>
    .ok lead :: chunks (depth + 1) ("[" ++ newline (depth + 1)) j
      ++ itemChunks (depth + 1) rest ++ [.ok (newline depth), .ok "]"]
  | object (m :: rest) =>
    .ok lead :: .ok "\x7b" :: .ok (newline (depth + 1))
      :: memberChunks (depth + 1) (m :: rest) ++ [.ok (newline depth), .ok "\x7d"]
  | j => [(plainChunk j).map (lead ++ ·)]

/-- The chunks of the items behind the first one. -/
def itemChunks (depth : Nat) : List Json → List (Except Fault Text)
  | [] => []
  | j :: rest => chunks depth ("," ++ newline depth) j ++ itemChunks depth rest

/-- The chunks of the members of an object. -/
def memberChunks (depth : Nat) : List (Text × Json) → List (Except Fault Text)
  | [] => []
  | (name, j) :: rest =>
    .ok (string name) :: .ok ": " :: chunks depth [] j
      ++ (if rest.isEmpty then [] else [.ok ("," ++ newline depth)]) ++ memberChunks depth rest

end

end Json

end DiceBot
