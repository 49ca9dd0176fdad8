import FeedTraffic.Json.Writer
import FeedTraffic.Log.Level
import FeedTraffic.Text.Literal

/-!
# Log records

A record has a level, the part of the program it comes from, an optional message and named values.
It is written as a line of text or as a JSON object.
-/

namespace FeedTraffic.Log

inductive Field where
  | count (n : Nat)
  /-- A text that lines quote. -/
  | text (s : String)
  /-- A text that lines show as it is. -/
  | shown (s : String)
  deriving DecidableEq, Repr

structure Record where
  level : Level
  target : String
  message : Option String := none
  fields : List (String × Field) := []
  deriving DecidableEq, Repr

namespace Record

def fieldText : Field → String
  | .count n => toString n
  | .text s => Text.Literal.quoted s
  | .shown s => s

/-- A record as a line: the level right-aligned, the target, the message and the values. -/
def line (r : Record) : String :=
  let label := r.level.label
  let pad := String.ofList (List.replicate (5 - label.length) ' ')
  let values := r.fields.map fun (k, v) => k ++ "=" ++ fieldText v
  pad ++ label ++ " " ++ r.target ++ ": " ++ " ".intercalate (r.message.toList ++ values)

def fieldJson : Field → Json
  | .count n => .number (Nat.toDigits 10 n)
  | .text s => .ofString s
  | .shown s => .ofString s

def json (r : Record) : Json :=
  let message := r.message.toList.map fun m => Json.member "message" (.ofString m)
  let values := r.fields.map fun (k, v) => Json.member k (fieldJson v)
  .object
    [Json.member "level" (.ofString r.level.label),
     Json.member "fields" (.object (message ++ values)),
     Json.member "target" (.ofString r.target)]

/-- The names of a record's values, the message included. -/
def names (r : Record) : List String :=
  (r.message.toList.map fun _ => "message") ++ r.fields.map (·.1)

end Record

/-- A record as it is written in a format.  A log is never written to a terminal here, so the
automatic format is the simplified one. -/
def Format.write (f : Format) (r : Record) : String :=
  match f with
  | .json => r.json.toText
  | _ => r.line

end FeedTraffic.Log
