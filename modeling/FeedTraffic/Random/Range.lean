import FeedTraffic.Number.Natural
import FeedTraffic.Random.Words

/-!
# Uniform numbers and picks

A word `x` of `b` bits gives the number `x · n / 2^b` below `n`.  When the remainder of that
product is so large that more bits of `x` could have carried, a second word decides whether they
do.  Limits and positions in a list take half a word, times take a whole one.
-/

namespace FeedTraffic.Random

/-- The number below `n` that a first word names, and the remainder that may still carry. -/
def scale (bits n x : Nat) : Nat × Nat := (x * n / 2 ^ bits, x * n % 2 ^ bits)

/-- Whether a remainder is large enough for a second word to matter. -/
def undecided (bits n low : Nat) : Bool := 2 ^ bits - n < low

/-- The carry of a second word into a remainder. -/
def carry (bits n low y : Nat) : Nat :=
  if 2 ^ bits ≤ low + y * n / 2 ^ bits then 1 else 0

/-- A number below `n`, from words of `bits` bits. -/
def below (bits : Nat) (word : Draw Nat) (n : Nat) : Draw Nat := do
  let x ← word
  let (high, low) := scale bits n x
  if undecided bits n low then
    let y ← word
    pure (high + carry bits n low y)
  else
    pure high

/-- A number from `lo` to `hi`, both included, from halves of words. -/
def between (lo hi : Nat) : Draw Nat := do
  let d ← below 32 nextHalf (hi - lo + 1)
  pure (lo + d)

/-- A number from `lo` to `hi`, both included, from whole words. -/
def betweenWide (lo hi : Nat) : Draw Nat := do
  let d ← below 64 nextNat (hi - lo + 1)
  pure (lo + d)

/-- An entry of a list; the empty list has none and uses no word. -/
def pick? {α : Type} (xs : List α) : Draw (Option α) :=
  if xs.isEmpty then pure none
  else do
    let i ← below 32 nextHalf xs.length
    pure xs[i]?

end FeedTraffic.Random
