import FeedTraffic.Text.Hex
import FeedTraffic.Text.Utf8

/-!
# Form encoding

Pairs of texts as the query of a request.  Letters, digits and `*-._` stand for themselves, a
space is a plus sign, and every other byte is a percent sign and two digits.  Reading gives the
pairs back; what is no escape there stands for itself.
-/

namespace FeedTraffic.Http.Form

/-! ## Writing -/

def isPlain (b : UInt8) : Bool :=
  (Char.ofNat b.toNat).isAlphanum || b == 0x2A || b == 0x2D || b == 0x2E || b == 0x5F

/-- A byte as a percent sign and two digits. -/
def escape (b : UInt8) : List Char :=
  ['%', Text.Hex.upper (b.toNat / 16), Text.Hex.upper (b.toNat % 16)]

/-- Escapes the characters that `p` names, and all beyond printable ASCII. -/
def escapeWhere (p : Char → Bool) (cs : List Char) : List Char :=
  cs.flatMap fun c =>
    if c.toNat ≤ 0x1F || 0x7F ≤ c.toNat || p c then (String.utf8EncodeChar c).flatMap escape
    else [c]

def byteText (b : UInt8) : List Char :=
  if b == 0x20 then ['+'] else if isPlain b then [Char.ofNat b.toNat] else escape b

def encodeText (s : String) : List Char := (Text.Utf8.encode s.toList).flatMap byteText

def encodePair (p : String × String) : List Char := encodeText p.1 ++ '=' :: encodeText p.2

/-- Pairs joined by ampersands. -/
def encodePairs : List (String × String) → List Char
  | [] => []
  | [p] => encodePair p
  | p :: ps => encodePair p ++ '&' :: encodePairs ps

def encode (ps : List (String × String)) : String := String.ofList (encodePairs ps)

/-! ## Reading -/

/-- The bytes of a text with percent signs. -/
def unescape : List Char → List UInt8
  | [] => []
  | '%' :: a :: b :: cs =>
    match Text.Hex.number? [a, b] with
    | some n => n.toUInt8 :: unescape cs
    | none => 0x25 :: unescape (a :: b :: cs)
  | c :: cs => String.utf8EncodeChar c ++ unescape cs

def bytes (cs : List Char) : List UInt8 := unescape (cs.map fun c => if c = '+' then ' ' else c)

/-- The text of a name or value; what is no UTF-8 is replaced. -/
def decodeText (cs : List Char) : String := String.ofList (Text.Utf8.decode (bytes cs))

def splitOn (sep : Char) : List Char → List (List Char)
  | [] => [[]]
  | c :: cs =>
    if c = sep then [] :: splitOn sep cs
    else match splitOn sep cs with
      | s :: ss => (c :: s) :: ss
      | [] => [[c]]

/-- A stretch at its first equals sign; without one the value is empty. -/
def decodePair (cs : List Char) : String × String :=
  (decodeText (cs.takeWhile (· ≠ '=')), decodeText ((cs.dropWhile (· ≠ '=')).drop 1))

/-- The pairs of a query; empty stretches give none. -/
def decode (s : String) : List (String × String) :=
  ((splitOn '&' s.toList).filter (!·.isEmpty)).map decodePair

end FeedTraffic.Http.Form
