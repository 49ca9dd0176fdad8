import FeedTraffic.Text.Utf16

/-!
# JSON values

A string of a JSON text is a list of pieces, each a character or an escaped 16-bit unit.  Units
are put together only when the string is asked for as text: a value that nobody looks at may hold
half of a surrogate pair.  Numbers keep their spelling.
-/

namespace FeedTraffic.Json

inductive Piece where
  | char (c : Char)
  /-- Four hexadecimal digits behind `\u`. -/
  | unit (n : Nat)
  deriving DecidableEq, Repr

end Json

inductive Json where
  | null
  | bool (b : Bool)
  /-- A number as it is spelled. -/
  | number (digits : List Char)
  | text (pieces : List Json.Piece)
  | array (items : List Json)
  /-- Members in the order of the text; a key may come more than once. -/
  | object (members : List (List Json.Piece × Json))
  deriving Repr

namespace Json

open Text.Utf16 (isHighSurrogate isLowSurrogate pair)

/-- The text of a list of pieces.  A high surrogate has to be followed by a low one. -/
def Piece.text? : List Piece → Option (List Char)
  | [] => some []
  | .char c :: ps => (Piece.text? ps).map (c :: ·)
  | .unit n :: ps =>
    if isHighSurrogate n then
      match ps with
      | .unit m :: qs =>
        if isLowSurrogate m then (Piece.text? qs).map (pair n m :: ·) else none
      | _ => none
    else if isLowSurrogate n then none
    else (Piece.text? ps).map (Char.ofNat n :: ·)

/-- A text as a string literal without escapes. -/
def ofString (s : String) : Json := .text (s.toList.map .char)

/-- A member with a key that needs no escapes. -/
def member (key : String) (value : Json) : List Piece × Json := (key.toList.map .char, value)

def string? : Json → Option String
  | .text ps => (Piece.text? ps).map String.ofList
  | _ => none

/-- The members of an object with their keys as texts, if every key is one. -/
def members? : Json → Option (List (String × Json))
  | .object ms => ms.mapM fun (k, v) => (Piece.text? k).map fun cs => (String.ofList cs, v)
  | _ => none

end Json

end FeedTraffic
