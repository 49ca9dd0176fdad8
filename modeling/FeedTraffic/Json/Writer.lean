import FeedTraffic.Json.Basic
import FeedTraffic.Text.Hex

/-!
# Values as text

A value is written without blanks.  Quotes, backslashes and control characters are escaped, by a
letter where JSON has one, and every other character stands for itself.
-/

namespace FeedTraffic.Json

/-- A 16-bit unit as an escape. -/
def unitText (n : Nat) : List Char := '\\' :: 'u' :: Text.Hex.padded 4 n

def charText (c : Char) : List Char :=
  match c with
  | '"' => ['\\', '"']
  | '\\' => ['\\', '\\']
  | '\x08' => ['\\', 'b']
  | '\x0c' => ['\\', 'f']
  | '\n' => ['\\', 'n']
  | '\r' => ['\\', 'r']
  | '\t' => ['\\', 't']
  | c => if c.toNat < 0x20 then unitText c.toNat else [c]

def pieceText : Piece → List Char
  | .char c => charText c
  | .unit n => unitText n

def stringText (ps : List Piece) : List Char := '"' :: (ps.flatMap pieceText ++ ['"'])

mutual

def chars : Json → List Char
  | .null => ['n', 'u', 'l', 'l']
  | .bool true => ['t', 'r', 'u', 'e']
  | .bool false => ['f', 'a', 'l', 's', 'e']
  | .number ds => ds
  | .text ps => stringText ps
  | .array items => '[' :: (itemsText items ++ [']'])
  | .object members => '\x7b' :: (membersText members ++ ['\x7d'])

def itemsText : List Json → List Char
  | [] => []
  | [v] => chars v
  | v :: vs => chars v ++ ',' :: itemsText vs

def membersText : List (List Piece × Json) → List Char
  | [] => []
  | [(k, v)] => stringText k ++ ':' :: chars v
  | (k, v) :: ms => stringText k ++ ':' :: chars v ++ ',' :: membersText ms

end

def toText (v : Json) : String := String.ofList v.chars

end FeedTraffic.Json
