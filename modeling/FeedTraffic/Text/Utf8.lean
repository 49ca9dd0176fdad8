import FeedTraffic.Number.Natural

/-!
# UTF-8 as a list of bytes

Texts are lists of characters here and their encodings are lists of bytes.  `takeBytes` cuts a
text at a character boundary, and `decode` reads any bytes whatever: an ill-formed run becomes one
replacement character, and the longest well-formed beginning of a character goes with it.
-/

namespace FeedTraffic.Text.Utf8

def encode (cs : List Char) : List UInt8 :=
  cs.flatMap String.utf8EncodeChar

def size (cs : List Char) : Nat :=
  (cs.map Char.utf8Size).sum

/-- The longest beginning of a text, in whole characters, that has at most `budget` bytes. -/
def takeBytes : Nat → List Char → List Char
  | _, [] => []
  | budget, c :: cs =>
    if c.utf8Size ≤ budget then c :: takeBytes (budget - c.utf8Size) cs else []

theorem size_takeBytes_le (budget : Nat) (cs : List Char) :
    size (takeBytes budget cs) ≤ budget := by
  induction cs generalizing budget with
  | nil => simp [takeBytes, size]
  | cons c cs ih =>
    simp only [takeBytes]
    split
    · have := ih (budget - c.utf8Size)
      simp only [size, List.map_cons, List.sum_cons] at this ⊢
      omega
    · simp [size]

theorem takeBytes_eq_self {budget : Nat} {cs : List Char} (h : size cs ≤ budget) :
    takeBytes budget cs = cs := by
  induction cs generalizing budget with
  | nil => rfl
  | cons c cs ih =>
    simp only [size, List.map_cons, List.sum_cons] at h
    have tail : size cs ≤ budget - c.utf8Size := by simp only [size]; omega
    simp only [takeBytes, ih tail]
    rw [if_pos (by omega)]

/-- What stands in for bytes that are not UTF-8. -/
def replacement : Char := Char.ofNat 0xFFFD

/-- The ranges that the bytes after a first byte have to keep to, if the byte can be first. -/
def tailRanges (b : UInt8) : Option (List (UInt8 × UInt8)) :=
  if b < 0x80 then some []
  else if b < 0xC2 then none
  else if b < 0xE0 then some [(0x80, 0xBF)]
  else if b = 0xE0 then some [(0xA0, 0xBF), (0x80, 0xBF)]
  else if b = 0xED then some [(0x80, 0x9F), (0x80, 0xBF)]
  else if b < 0xF0 then some [(0x80, 0xBF), (0x80, 0xBF)]
  else if b = 0xF0 then some [(0x90, 0xBF), (0x80, 0xBF), (0x80, 0xBF)]
  else if b < 0xF4 then some [(0x80, 0xBF), (0x80, 0xBF), (0x80, 0xBF)]
  else if b = 0xF4 then some [(0x80, 0x8F), (0x80, 0xBF), (0x80, 0xBF)]
  else none

/-- How many of the next bytes keep to their ranges. -/
def matched : List (UInt8 × UInt8) → List UInt8 → Nat
  | (lo, hi) :: ranges, b :: bs => if lo ≤ b ∧ b ≤ hi then matched ranges bs + 1 else 0
  | _, _ => 0

/-- The character of a well-formed first byte and its tail. -/
def assemble (b : UInt8) (tail : List UInt8) : Char :=
  let first := match tail.length with
    | 0 => b.toNat
    | 1 => b.toNat % 32
    | 2 => b.toNat % 16
    | _ => b.toNat % 8
  Char.ofNat (tail.foldl (fun n t => n * 64 + t.toNat % 64) first)

/-- The text of any bytes, with `replacement` for what is not UTF-8. -/
def decode : List UInt8 → List Char
  | [] => []
  | b :: bs =>
    match tailRanges b with
    | none => replacement :: decode bs
    | some ranges =>
      let n := matched ranges bs
      let c := if n = ranges.length then assemble b (bs.take n) else replacement
      c :: decode (bs.drop n)
termination_by bs => bs.length
decreasing_by all_goals (simp only [List.length_cons, List.length_drop]; omega)

end FeedTraffic.Text.Utf8
