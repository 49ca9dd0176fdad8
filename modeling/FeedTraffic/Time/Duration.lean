import FeedTraffic.Number.Natural

/-!
# Durations

A duration is a number of whole seconds and fewer than `10^9` nanoseconds.  It is written in the
largest of the units `s`, `ms`, `µs` and `ns` in which it is at least one, with as many decimals
as it needs.
-/

namespace FeedTraffic.Time

structure Duration where
  seconds : Nat
  nanos : Nat
  nanos_lt : nanos < 1000000000 := by decide
  deriving DecidableEq, Repr

namespace Duration

def zero : Duration := ⟨0, 0, by decide⟩

def ofSeconds (n : Nat) : Duration := ⟨n, 0, by decide⟩

/-- Any number of nanoseconds on top of whole seconds. -/
def ofParts (seconds nanos : Nat) : Duration :=
  ⟨seconds + nanos / 1000000000, nanos % 1000000000, Nat.mod_lt _ (by decide)⟩

def ofMillis (n : Nat) : Duration := ofParts (n / 1000) (n % 1000 * 1000000)

/-- Whole milliseconds; what is below one is left out. -/
def millis (d : Duration) : Nat := d.seconds * 1000 + d.nanos / 1000000

/-- A whole number and a fraction of `width` digits, without zeros at its end. -/
def withFraction (whole fraction width : Nat) : String :=
  let digits := Nat.toDigits 10 fraction
  let padded := List.replicate (width - digits.length) '0' ++ digits
  let kept := (padded.reverse.dropWhile (· == '0')).reverse
  toString whole ++ (if kept.isEmpty then "" else "." ++ String.ofList kept)

def text (d : Duration) : String :=
  if 0 < d.seconds then withFraction d.seconds d.nanos 9 ++ "s"
  else if 1000000 ≤ d.nanos then withFraction (d.nanos / 1000000) (d.nanos % 1000000) 6 ++ "ms"
  else if 1000 ≤ d.nanos then withFraction (d.nanos / 1000) (d.nanos % 1000) 3 ++ "µs"
  else toString d.nanos ++ "ns"

end Duration

/-- The pause of a virtual user between two tasks, both bounds included. -/
structure WaitTime where
  min : Duration
  max : Duration
  deriving DecidableEq, Repr

namespace WaitTime

def ofMillis (min max : Nat) : WaitTime := ⟨.ofMillis min, .ofMillis max⟩

def text (w : WaitTime) : String := w.min.text ++ ".." ++ w.max.text

/-- Whether the bounds are in order when counted in whole milliseconds. -/
def isOrdered (w : WaitTime) : Bool := w.min.millis ≤ w.max.millis

end WaitTime

end FeedTraffic.Time
