import FeedTraffic.Feed.Endpoint
import FeedTraffic.Feed.Samples
import FeedTraffic.Random.Chance

/-!
# Requests to the feed

A request is an endpoint, a list of parameters in the order in which they are sent, and the kind
of answer that counts as a success.  Cursors bring a request back in time: `before` by an hour to
a day, `after` by one to two days.  A clock that shows less than that gives the cursor zero.
-/

namespace FeedTraffic.Feed

open FeedTraffic.Number FeedTraffic.Random

inductive Expectation where
  /-- Status 200 only. -/
  | ok
  /-- The request is malformed on purpose: status 400 or 404. -/
  | clientError
  deriving DecidableEq, Repr

structure Request where
  endpoint : Endpoint
  params : List (String × String) := []
  expect : Expectation := .ok
  deriving DecidableEq, Repr

/-- The parameter that names the user who asks. -/
def requesterKey : String := "requesterPubkey"

namespace Request

def param (r : Request) (name value : String) : Request :=
  { r with params := r.params ++ [(name, value)] }

def limit (r : Request) (n : Nat) : Request := r.param "limit" (toString n)

def expectClientError (r : Request) : Request := { r with expect := .clientError }

/-- A cursor between one hour and one day back. -/
def before (r : Request) (now : Nat) : Draw Request := do
  let back ← betweenWide 3600 86400
  pure (r.param "before" (toString (now - back)))

/-- A cursor between one and two days back. -/
def after (r : Request) (now : Nat) : Draw Request := do
  let back ← betweenWide 86400 172800
  pure (r.param "after" (toString (now - back)))

/-- A `before` cursor with a given chance. -/
def paginateBefore (r : Request) (now : Nat) (chance : Chance) : Draw Request := do
  if ← chance.happens then r.before now else pure r

/-- A `before` cursor with a probability that is given as a number.  A number that is no probability
is refused before any word is used. -/
def paginateBeforeBy (r : Request) (now : Nat) (p : Binary64) :
    Except ImproperChance (Draw Request) := do
  let chance ← Chance.ofBinary64 p
  pure (r.paginateBefore now chance)

/-- A `before` cursor in three of ten cases; otherwise an `after` cursor in one of ten. -/
def paginate (r : Request) (now : Nat) : Draw Request := do
  if ← Chance.threeTenths.happens then r.before now
  else if ← Chance.tenth.happens then r.after now
  else pure r

end Request

end FeedTraffic.Feed
