import FeedTraffic.Number.Shortest
import FeedTraffic.Settings.Value
import FeedTraffic.Text.Blank
import FeedTraffic.Text.Literal

/-!
# Values that do not fit

A mismatch names a value of a tree by its path and says why it cannot be read as what is expected
there.
-/

namespace FeedTraffic.Settings

open FeedTraffic.Number

/-- What a setting can be expected to be. -/
inductive Expected where
  | count
  | number
  | bool
  | text
  | duration
  | sequence
  | record (name : String)
  /-- A choice of names. -/
  | choice (name : String)
  /-- A dictionary whose one key is a choice. -/
  | chosenKey
  | nothing
  deriving DecidableEq, Repr

def Expected.phrase : Expected → String
  | count => "usize"
  | number => "f64"
  | bool => "a boolean"
  | text => "a string"
  | duration => "a duration"
  | sequence => "a sequence"
  | record name => "struct " ++ name
  | choice name => "enum " ++ name
  | chosenKey => "enum"
  | nothing => "unit"

def Scalar.phrase : Scalar → String
  | .empty => "unit"
  | .bool b => "bool " ++ toString b
  | .unsigned n => "unsigned int `" ++ toString n ++ "`"
  | .signed i => "signed int `" ++ toString i ++ "`"
  | .wideUnsigned n => "integer `" ++ toString n ++ "` as u128"
  | .wideSigned i => "integer `" ++ toString i ++ "` as i128"
  | .float x => "float `" ++ x.plain ++ "`"
  | .char c => "string " ++ Text.Literal.quoted (String.singleton c)
  | .text s => "string " ++ Text.Literal.quoted s

def Value.phrase : Value → String
  | .scalar _ s => s.phrase
  | .list _ _ => "sequence"
  | .dict _ _ => "map"

inductive Reason where
  /-- A value of another kind. -/
  | type (found : Value) (expected : Expected)
  /-- A value of the right kind that stands for nothing. -/
  | value (found : Scalar) (expected : Expected)
  | missing (field : String)
  /-- A list that is too short for a record without defaults. -/
  | length (found : Nat) (record : String) (fields : Nat)
  /-- A name that is no choice. -/
  | choice (name : String) (choices : List String)
  | level
  /-- A duration whose last sum runs over. -/
  | overflow
  deriving Repr

def choicesPhrase (choices : List String) : String :=
  "`one of " ++ ", ".intercalate (choices.map fun c => "`" ++ c ++ "`") ++ "`"

def Reason.message : Reason → String
  | type found expected =>
    "invalid type: found " ++ found.phrase ++ ", expected " ++ expected.phrase
  | value found expected => "invalid value " ++ found.phrase ++ ", expected " ++ expected.phrase
  | missing field => "missing field `" ++ field ++ "`"
  | length found record fields =>
    "invalid length " ++ toString found ++ ", expected struct " ++ record ++ " with " ++
      toString fields ++ " elements"
  | choice name choices =>
    "unknown variant: found `" ++ name ++ "`, expected " ++ choicesPhrase choices
  | level =>
    "error parsing level filter: expected one of \"off\", \"error\", \"warn\", \"info\", " ++
      "\"debug\", \"trace\", or a number 0-5"
  | overflow => "overflow in Duration::new"

structure Mismatch where
  reason : Reason
  /-- The keys and list positions down to the value. -/
  path : List String
  /-- The source of the value. -/
  origin : Origin
  deriving Repr

namespace Mismatch

/-- Where a value is, as a person finds it in its source. -/
def place (m : Mismatch) : String :=
  match m.origin with
  | .defaults => "key \"default." ++ ".".intercalate m.path ++ "\" in the defaults"
  | .file name => "key \"default." ++ ".".intercalate m.path ++ "\" in " ++ name ++ " YAML file"
  | .environment =>
    "key \"" ++ Text.asciiUpper (".".intercalate m.path) ++
      "\" in `FEEDLOAD__` environment variable(s)"

def message (m : Mismatch) : String := m.reason.message ++ " for " ++ m.place

end Mismatch

end FeedTraffic.Settings
