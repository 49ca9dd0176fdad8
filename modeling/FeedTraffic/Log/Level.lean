import FeedTraffic.Number.Whole
import FeedTraffic.Text.Blank

/-!
# Log levels

A record has a level from error to trace.  A threshold is a level or `off`; a record passes when
it is no more detailed than the threshold.
-/

namespace FeedTraffic.Log

inductive Level where
  | off
  | error
  | warn
  | info
  | debug
  | trace
  deriving DecidableEq, Repr

namespace Level

/-- How detailed a level is. -/
def rank : Level → Nat
  | off => 0
  | error => 1
  | warn => 2
  | info => 3
  | debug => 4
  | trace => 5

def all : List Level := [off, error, warn, info, debug, trace]

def name : Level → String
  | off => "off"
  | error => "error"
  | warn => "warn"
  | info => "info"
  | debug => "debug"
  | trace => "trace"

/-- The name as it stands in records. -/
def label (l : Level) : String := Text.asciiUpper l.name

/-- A level by its rank, or by its name in any case; the empty text is `error`. -/
def ofText? (s : String) : Option Level :=
  match (Number.Whole.unsigned? 5 s.toList).bind fun n => all.find? (·.rank == n) with
  | some l => some l
  | none => if s = "" then some error else all.find? (·.name == Text.asciiLower s)

def admits (threshold level : Level) : Bool := level.rank ≤ threshold.rank

end Level

inductive Format where
  /-- Pretty on a terminal, simplified elsewhere. -/
  | auto
  | pretty
  | simplified
  | json
  deriving DecidableEq, Repr

namespace Format

def all : List Format := [auto, pretty, simplified, json]

def name : Format → String
  | auto => "auto"
  | pretty => "pretty"
  | simplified => "simplified"
  | json => "json"

/-- The name of a format in dumps. -/
def label : Format → String
  | auto => "Auto"
  | pretty => "Pretty"
  | simplified => "Simplified"
  | json => "Json"

def ofName? (s : String) : Option Format := all.find? (·.name == s)

end Format

end FeedTraffic.Log
