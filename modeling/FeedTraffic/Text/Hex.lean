/-!
# Hexadecimal digits

Which characters are hexadecimal digits, what they are worth, and how a number is written with
them.  Only ASCII digits count, so a text of digits has as many bytes as characters.
-/

namespace FeedTraffic.Text.Hex

/-- The value of a hexadecimal digit of either case. -/
def value? (c : Char) : Option Nat :=
  if '0' ≤ c ∧ c ≤ '9' then some (c.toNat - '0'.toNat)
  else if 'a' ≤ c ∧ c ≤ 'f' then some (c.toNat - 'a'.toNat + 10)
  else if 'A' ≤ c ∧ c ≤ 'F' then some (c.toNat - 'A'.toNat + 10)
  else none

def isDigit (c : Char) : Bool :=
  (value? c).isSome

/-- The hexadecimal digits of either case. -/
theorem isDigit_iff (c : Char) :
    isDigit c = true ↔ ('0' ≤ c ∧ c ≤ '9') ∨ ('a' ≤ c ∧ c ≤ 'f') ∨ ('A' ≤ c ∧ c ≤ 'F') := by
  rw [isDigit, value?]
  split
  · simp [*]
  · split
    · simp [*]
    · split <;> simp [*]

/-- The value of a run of hexadecimal digits. -/
def number? (cs : List Char) : Option Nat :=
  cs.foldlM (fun n c => (value? c).map (n * 16 + ·)) 0

/-- A number in lower-case digits, filled up with zeros to `width`. -/
def padded (width n : Nat) : List Char :=
  let digits := Nat.toDigits 16 n
  List.replicate (width - digits.length) '0' ++ digits

def upper (n : Nat) : Char :=
  if n < 10 then Char.ofNat ('0'.toNat + n) else Char.ofNat ('A'.toNat + (n - 10))

end FeedTraffic.Text.Hex
