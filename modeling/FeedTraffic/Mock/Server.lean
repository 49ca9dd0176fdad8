import FeedTraffic.Http.Exchange
import FeedTraffic.Mock.Rules

/-!
# The mock feed

A service that checks requests as the feed does, or answers all of them with one status.  It
counts the requests to each path of the feed, whatever comes of them; its health endpoint and
unknown paths are not counted.
-/

namespace FeedTraffic.Mock

open FeedTraffic.Http

structure Server where
  /-- The status of all answers of the feed, if there is one. -/
  forced : Option Nat := none
  /-- Paths of the feed with the number of their requests. -/
  counts : List (String × Nat) := []
  deriving DecidableEq, Repr

namespace Server

def bump (path : String) : List (String × Nat) → List (String × Nat)
  | [] => [(path, 1)]
  | (p, n) :: rest => if p = path then (p, n + 1) :: rest else (p, n) :: bump path rest

theorem lookup_bump (path q : String) (counts : List (String × Nat)) :
    (bump path counts).lookup q =
      if q = path then some ((counts.lookup path).getD 0 + 1) else counts.lookup q := by
  induction counts with
  | nil =>
    by_cases h : q = path
    · simp [bump, h]
    · simp [bump, h, List.lookup_cons, beq_eq_false_iff_ne.2 h]
  | cons c rest ih =>
    obtain ⟨p, n⟩ := c
    by_cases hp : p = path
    · subst hp
      by_cases h : q = p
      · simp [bump, h]
      · simp [bump, h, List.lookup_cons, beq_eq_false_iff_ne.2 h]
    · by_cases hq : q = p
      · subst hq
        simp [bump, hp]
      · have other := beq_eq_false_iff_ne.2 hq
        by_cases h : q = path
        · subst h
          simp [bump, hp, List.lookup_cons, other, ih]
        · simp [bump, hp, List.lookup_cons, other, ih, h]

theorem sum_bump (path : String) (counts : List (String × Nat)) :
    ((bump path counts).map (·.2)).sum = (counts.map (·.2)).sum + 1 := by
  induction counts with
  | nil => rfl
  | cons c rest ih =>
    obtain ⟨p, n⟩ := c
    by_cases hp : p = path <;> simp [bump, hp, ih] <;> omega

/-- The requests on a path so far. -/
def hits (s : Server) (path : String) : Nat := (s.counts.lookup path).getD 0

/-- The requests on all paths of the feed so far. -/
def totalHits (s : Server) : Nat := (s.counts.map (·.2)).sum

def ofJson (status : Nat) (body : Json) : Response := .ofText status body.toText

def answer (s : Server) (path : String) (ps : Params) : Response :=
  match s.forced with
  | some 200 => ofJson 200 (page ps)
  | some status => ofJson status (errorBody "forced status")
  | none =>
    match respond path ps with
    | .ok body => ofJson 200 body
    | .error r => ofJson 400 (errorBody r.message)

def handle (path : String) (ps : Params) : StateM Server Response := do
  let s ← get
  if path = "/health" then pure (.ofText 200 "OK")
  else if feedPaths.contains path then
    set { s with counts := bump path s.counts }
    pure (s.answer path ps)
  else pure (.ofText 404 "Not Found")

/-- The server as a service: its parameters are the query of an address. -/
def service : Service Server := fun u => do
  let r ← handle u.path (Form.decode (u.query.getD ""))
  pure (.ok r)

/-- The address of a path on a server with a base address.  Slashes in front make no difference. -/
def address (base path : String) : String :=
  base ++ "/" ++ String.ofList (path.toList.dropWhile (· == '/'))

end Server

end FeedTraffic.Mock
