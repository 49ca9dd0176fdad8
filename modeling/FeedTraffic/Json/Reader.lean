import FeedTraffic.Json.Token

/-!
# Values from tokens

The reader keeps the arrays and objects that are still open on a stack of its own, so a value may
be nested to any depth.  After a value it expects what the innermost open value allows: a comma
and the next item, or the closing bracket.  A text has to hold one value and nothing else.
-/

namespace FeedTraffic.Json

/-- An array or object that is not closed yet, its finished items in reverse order. -/
inductive Open where
  | array (done : List Json)
  | object (done : List (List Piece × Json)) (key : List Piece)

/-- Reads on, with a finished value at hand or with a value to come. -/
def resume : List Token → List Open → Option Json → Option Json
  | [], [], some v => some v
  | .comma :: ts, .array done :: open', some v => resume ts (.array (v :: done) :: open') none
  | .closeArray :: ts, .array done :: open', some v =>
    resume ts open' (some (.array (v :: done).reverse))
  | .comma :: .text key :: .colon :: ts, .object done k :: open', some v =>
    resume ts (.object ((k, v) :: done) key :: open') none
  | .closeObject :: ts, .object done k :: open', some v =>
    resume ts open' (some (.object ((k, v) :: done).reverse))
  | .null :: ts, open', none => resume ts open' (some .null)
  | .bool b :: ts, open', none => resume ts open' (some (.bool b))
  | .number ds :: ts, open', none => resume ts open' (some (.number ds))
  | .text ps :: ts, open', none => resume ts open' (some (.text ps))
  | .openArray :: .closeArray :: ts, open', none => resume ts open' (some (.array []))
  | .openArray :: ts, open', none => resume ts (.array [] :: open') none
  | .openObject :: .closeObject :: ts, open', none => resume ts open' (some (.object []))
  | .openObject :: .text key :: .colon :: ts, open', none =>
    resume ts (.object [] key :: open') none
  | _, _, _ => none

def ofText? (s : String) : Option Json := do
  let tokens ← Token.ofText? s.toList
  resume tokens [] none

end FeedTraffic.Json
