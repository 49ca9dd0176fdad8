import FeedTraffic.Number.Binary64

/-!
# Trees of settings

Every source of settings gives a tree of scalars, lists and dictionaries, and every node knows its
source.  The entries of a dictionary are kept in the order of their keys.  Of two trees the later
one wins, except that two dictionaries are joined key by key.
-/

namespace FeedTraffic.Settings

open FeedTraffic.Number

inductive Origin where
  | defaults
  | file (name : String)
  | environment
  deriving DecidableEq, Repr

inductive Scalar where
  | empty
  | bool (b : Bool)
  /-- A number of 64 bits without a sign. -/
  | unsigned (n : Nat)
  /-- A number of 64 bits with a sign. -/
  | signed (i : Int)
  /-- A number beyond 64 bits without a sign. -/
  | wideUnsigned (n : Nat)
  /-- A number beyond 64 bits with a sign. -/
  | wideSigned (i : Int)
  | float (x : Binary64)
  /-- A single character in single quotes. -/
  | char (c : Char)
  | text (s : String)
  deriving DecidableEq, Repr

inductive Value where
  | scalar (origin : Origin) (s : Scalar)
  | list (origin : Origin) (items : List Value)
  | dict (origin : Origin) (entries : List (String × Value))
  deriving Repr

namespace Value

def origin : Value → Origin
  | scalar o _ => o
  | list o _ => o
  | dict o _ => o

end Value

/-- Entries with one more, in place of an entry of the same key. -/
def put (key : String) (value : Value) : List (String × Value) → List (String × Value)
  | [] => [(key, value)]
  | (k, v) :: es =>
    if k = key then (key, value) :: es
    else if key < k then (key, value) :: (k, v) :: es
    else (k, v) :: put key value es

/-- A dictionary of entries in any order; a later entry replaces one of the same key. -/
def Value.ofEntries (origin : Origin) (es : List (String × Value)) : Value :=
  .dict origin (es.foldl (fun done e => put e.1 e.2 done) [])

mutual

/-- A tree over an earlier one. -/
def Value.over (earlier : Value) : Value → Value
  | .dict o es =>
    match earlier with
    | .dict _ old => .dict o (entriesOver old es)
    | _ => .dict o es
  | later => later

/-- Entries over earlier ones. -/
def entriesOver (earlier : List (String × Value)) :
    List (String × Value) → List (String × Value)
  | [] => earlier
  | (k, v) :: es =>
    let joined := match earlier.lookup k with
      | some old => Value.over old v
      | none => v
    entriesOver (put k joined earlier) es

end

end FeedTraffic.Settings
