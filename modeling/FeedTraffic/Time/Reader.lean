import FeedTraffic.Text.Blank
import FeedTraffic.Time.Duration

/-!
# Durations in words

A duration is read from groups of a number and a unit, such as `1h 30m` or `1.5s`; blanks may
stand anywhere between digits and around units.  The number of a group may have decimals if they
come out even: in nanoseconds for units up to a minute, in seconds for the longer ones.  Every
product and sum has to fit into 64 bits.  The text `0` alone is the duration zero.
-/

namespace FeedTraffic.Time.Reader

inductive Unit where
  | nanosecond | microsecond | millisecond | second | minute | hour | day | week | month | year
  deriving DecidableEq, Repr

/-- The names of the units.  A month is 30.44 days and a year 365.25 days. -/
def unitNames : List (String × Unit) :=
  [("nanos", .nanosecond), ("nsec", .nanosecond), ("ns", .nanosecond),
   ("usec", .microsecond), ("us", .microsecond), ("µs", .microsecond),
   ("millis", .millisecond), ("msec", .millisecond), ("ms", .millisecond),
   ("seconds", .second), ("second", .second), ("secs", .second), ("sec", .second), ("s", .second),
   ("minutes", .minute), ("minute", .minute), ("min", .minute), ("mins", .minute), ("m", .minute),
   ("hours", .hour), ("hour", .hour), ("hrs", .hour), ("hr", .hour), ("h", .hour),
   ("days", .day), ("day", .day), ("d", .day),
   ("weeks", .week), ("week", .week), ("wks", .week), ("wk", .week), ("w", .week),
   ("months", .month), ("month", .month), ("M", .month),
   ("years", .year), ("year", .year), ("yrs", .year), ("yr", .year), ("y", .year)]

/-- The length of a unit: in nanoseconds for the short ones, in seconds for the long ones. -/
inductive Length where
  | nanos (n : Nat)
  | seconds (n : Nat)

def Unit.length : Unit → Length
  | .nanosecond => .nanos 1
  | .microsecond => .nanos 1000
  | .millisecond => .nanos 1000000
  | .second => .seconds 1
  | .minute => .seconds 60
  | .hour => .seconds 3600
  | .day => .seconds 86400
  | .week => .seconds 604800
  | .month => .seconds 2630016
  | .year => .seconds 31557600

/-- The length that decimals of a unit are counted in.  A nanosecond has no decimals. -/
def Unit.fractionLength : Unit → Option Length
  | .nanosecond => none
  | .second => some (.nanos 1000000000)
  | .minute => some (.nanos 60000000000)
  | u => some u.length

/-- Decimals of a group: `numerator / denominator`, the denominator a power of ten. -/
structure Fraction where
  numerator : Nat
  denominator : Nat

structure Group where
  whole : Nat
  fraction : Option Fraction
  unit : String

/-- Why a text is no duration: it is not written as one, or its last sum runs over. -/
inductive Refusal where
  | malformed
  | overflow
  deriving DecidableEq, Repr

def fits (n : Nat) : Option Nat :=
  if n < 2 ^ 64 then some n else none

def isUnitChar (c : Char) : Bool :=
  ('a' ≤ c && c ≤ 'z') || ('A' ≤ c && c ≤ 'Z') || c == 'µ'

def digit (c : Char) : Nat := c.toNat - '0'.toNat

/-- Digits of a whole number, with blanks between them. -/
def whole : Nat → List Char → Option (Nat × List Char)
  | n, [] => some (n, [])
  | n, c :: cs =>
    if c.isDigit then (fits (n * 10)).bind fun m => (fits (m + digit c)).bind fun m => whole m cs
    else if Text.isBlank c then whole n cs
    else some (n, c :: cs)

/-- Digits behind the point, with blanks between them.  The denominator grows with each. -/
def decimals : Fraction → List Char → Option (Fraction × List Char)
  | f, [] => some (f, [])
  | f, c :: cs =>
    if c.isDigit then
      (fits (f.denominator * 10)).bind fun den =>
        (fits (f.numerator * 10 + digit c)).bind fun num => decimals ⟨num, den⟩ cs
    else if Text.isBlank c then decimals f cs
    else some (f, c :: cs)

/-- The first digit of a group, behind blanks; none at the end of the text. -/
def firstDigit? : List Char → Option (Option (Nat × List Char))
  | [] => some none
  | c :: cs =>
    if c.isDigit then some (some (digit c, cs))
    else if Text.isBlank c then firstDigit? cs
    else none

/-- One group behind its first digit.  A unit ends at a digit, at a blank or with the text. -/
def group? (first : Nat) (cs : List Char) : Option (Group × List Char) := do
  let (n, cs) ← whole first cs
  let (fraction, cs) ← match cs with
    | '.' :: cs => do
      let (f, cs) ← decimals ⟨0, 1⟩ cs
      if f.denominator = 1 then none else pure (some f, cs)
    | _ => pure (none, cs)
  let name := cs.takeWhile isUnitChar
  let rest := cs.dropWhile isUnitChar
  if rest.head?.all fun c => c.isDigit || Text.isBlank c then
    pure (⟨n, fraction, String.ofList name⟩, rest)
  else none

/-- Seconds and nanoseconds on top of a duration. -/
def add (d : Duration) (seconds nanos : Nat) : Except Refusal Duration := do
  let total := d.nanos + nanos
  if 2 ^ 64 ≤ total then throw .malformed
  let carried := if 1000000000 < total then total / 1000000000 else 0
  let left := if 1000000000 < total then total % 1000000000 else total
  if 2 ^ 64 ≤ seconds + carried then throw .malformed
  let sum := d.seconds + (seconds + carried)
  if 2 ^ 64 ≤ sum then throw .malformed
  if sum = 2 ^ 64 - 1 ∧ left = 1000000000 then throw .overflow
  pure (.ofParts sum left)

/-- A count of a length, split into seconds and nanoseconds. -/
def Length.times (count : Nat) : Length → Option (Nat × Nat)
  | .nanos n => (fits (count * n)).map fun total => (0, total)
  | .seconds n => (fits (count * n)).map fun total => (total, 0)

/-- The part of a length that decimals name, if it comes out even. -/
def Length.part (f : Fraction) : Length → Option (Nat × Nat)
  | .nanos n => (fits (f.numerator * n)).bind fun total =>
    if total % f.denominator = 0 then some (0, total / f.denominator) else none
  | .seconds n => (fits (f.numerator * n)).bind fun total =>
    if total % f.denominator = 0 then some (total / f.denominator, 0) else none

def addGroup (d : Duration) (g : Group) : Except Refusal Duration := do
  let some unit := unitNames.lookup g.unit | throw .malformed
  let some (seconds, nanos) := unit.length.times g.whole | throw .malformed
  let d ← add d seconds nanos
  match g.fraction with
  | none => pure d
  | some f =>
    let some (seconds, nanos) := unit.fractionLength.bind (·.part f) | throw .malformed
    add d seconds nanos

/-- The groups of a text on top of a duration; `fuel` bounds their number. -/
def addGroups : Nat → Duration → List Char → Except Refusal Duration
  | 0, _, _ => .error .malformed
  | fuel + 1, d, cs => do
    match firstDigit? cs with
    | none => throw .malformed
    | some none => pure d
    | some (some (first, cs)) =>
      let some (g, rest) := group? first cs | throw .malformed
      let d ← addGroup d g
      addGroups fuel d rest

end Reader

def Duration.ofText (s : String) : Except Reader.Refusal Duration :=
  if s = "0" then .ok .zero
  else if s.toList.all Text.isBlank then .error .malformed
  else Reader.addGroups (s.length + 1) .zero s.toList

end FeedTraffic.Time
