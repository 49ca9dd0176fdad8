import FeedTraffic.Number.Natural

/-!
# Whole numbers in digits

Digits of any base make a number.  In decimals an unsigned number may have a plus sign and leading
zeros; a signed one may also have a minus sign.  Either has at least one digit and lies within a
limit.
-/

namespace FeedTraffic.Number.Whole

def digit? (base : Nat) (c : Char) : Option Nat :=
  let n :=
    if c.isDigit then c.toNat - '0'.toNat
    else if 'a' ≤ c ∧ c ≤ 'z' then c.toNat - 'a'.toNat + 10
    else if 'A' ≤ c ∧ c ≤ 'Z' then c.toNat - 'A'.toNat + 10
    else base
  if n < base then some n else none

/-- The number of a text of digits of a base, at least one. -/
def inBase? (base : Nat) (cs : List Char) : Option Nat :=
  if cs.isEmpty then none
  else cs.foldlM (fun n c => (digit? base c).map (n * base + ·)) 0

def digits? (cs : List Char) : Option Nat :=
  if cs.isEmpty || !cs.all Char.isDigit then none else some (Nat.ofDigitChars 10 cs 0)

/-- A number at most `limit`, if there is one. -/
def atMost (limit : Nat) (n : Option Nat) : Option Nat :=
  n.filter (· ≤ limit)

def unsigned? (limit : Nat) : List Char → Option Nat
  | '+' :: cs => atMost limit (digits? cs)
  | cs => atMost limit (digits? cs)

/-- A signed number from `-limit - 1` to `limit`. -/
def signed? (limit : Nat) : List Char → Option Int
  | '-' :: cs => (atMost (limit + 1) (digits? cs)).map fun n => -(n : Int)
  | cs => (unsigned? limit cs).map Int.ofNat

end FeedTraffic.Number.Whole
