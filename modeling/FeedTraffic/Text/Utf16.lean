import FeedTraffic.Text.Utf8

/-!
# Texts in units of sixteen bits

A character with a number beyond sixteen bits is two units, a high surrogate and a low one behind
it.  Any bytes can be read: a half of such a pair alone, or half a unit at the end, becomes one
replacement character.
-/

namespace FeedTraffic.Text

namespace Utf16

def isHighSurrogate (n : Nat) : Bool := 0xD800 ≤ n && n < 0xDC00

def isLowSurrogate (n : Nat) : Bool := 0xDC00 ≤ n && n < 0xE000

def pair (high low : Nat) : Char :=
  Char.ofNat (0x10000 + (high - 0xD800) * 0x400 + (low - 0xDC00))

def single (n : Nat) : Char :=
  if isHighSurrogate n || isLowSurrogate n then Utf8.replacement else Char.ofNat n

/-- The units of bytes, and whether half a unit is left. -/
def units (bigEndian : Bool) : List UInt8 → List Nat × Bool
  | a :: b :: rest =>
    let (us, half) := units bigEndian rest
    ((if bigEndian then a.toNat * 256 + b.toNat else b.toNat * 256 + a.toNat) :: us, half)
  | [_] => ([], true)
  | [] => ([], false)

/-- The text of units.  Half a unit behind a high surrogate goes with it. -/
def ofUnits (half : Bool) : List Nat → List Char
  | [] => if half then [Utf8.replacement] else []
  | [u] => if isHighSurrogate u then [Utf8.replacement] else single u :: ofUnits half []
  | u :: v :: rest =>
    if isHighSurrogate u && isLowSurrogate v then pair u v :: ofUnits half rest
    else single u :: ofUnits half (v :: rest)

def decode (bigEndian : Bool) (bs : List UInt8) : List Char :=
  let (us, half) := units bigEndian bs
  ofUnits half us

end Utf16

/-- The text of a body.  A byte order mark in front is no part of it and says what it is written
in; without one it is UTF-8. -/
def decodeBody (bs : List UInt8) : List Char :=
  match bs with
  | 0xEF :: 0xBB :: 0xBF :: rest => Utf8.decode rest
  | 0xFE :: 0xFF :: rest => Utf16.decode true rest
  | 0xFF :: 0xFE :: rest => Utf16.decode false rest
  | _ => Utf8.decode bs

end FeedTraffic.Text
