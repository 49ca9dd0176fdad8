import FeedTraffic.Feed.Endpoint
import FeedTraffic.Http.Exchange
import FeedTraffic.Log.Record

/-!
# Asking for the health of a host

A host is healthy when its health endpoint answers with a status of success.
-/

namespace FeedTraffic.Traffic.Preflight

open FeedTraffic.Http FeedTraffic.Log

/-- Why a host is not known to be healthy. -/
inductive Fault where
  /-- The text of the address names none that a request can go to. -/
  | address (text : String) (causes : List String)
  | lost (text : String) (cause : Failure) (at' : Url)
  | status (code : Nat)
  deriving DecidableEq, Repr

def Fault.message : Fault → String
  | address text _ => "failed to reach " ++ text
  | lost text _ _ => "failed to reach " ++ text
  | status code => "Bad Status: " ++ Status.text code

def Fault.causes : Fault → List String
  | address _ causes => causes
  | lost _ cause u => cause.causes u
  | status _ => []

/-- The address of a host's health endpoint, as text. -/
def healthText (host : String) : String :=
  String.ofList (host.toList.reverse.dropWhile (· == '/')).reverse ++ Feed.Endpoint.health.path

/-- The address of a text, if requests can go there. -/
def destination (text : String) : Except (List String) Url :=
  match Url.ofText text with
  | .error fault => .error ["builder error", fault.message]
  | .ok u => if u.isHttp then .ok u else .error (Failure.scheme.causes u)

def target : String := "feedload::healthcheck"

def probe {σ : Type} (service : Service σ) (text : String) : StateM σ (Except Fault Unit) := do
  match destination text with
  | .error causes => pure (.error (.address text causes))
  | .ok u =>
    match ← exchange service u with
    | .failed cause a => pure (.error (.lost text cause a))
    | .answered r =>
      if Status.isSuccess r.status then pure (.ok ()) else pure (.error (.status r.status))

/-- Checks a host, and gives the records of the check. -/
def check {σ : Type} (service : Service σ) (host : String) :
    StateM σ (List Record × Except Fault Unit) := do
  let text := healthText host
  let asked : Record :=
    { level := .debug, target, message := some ("sending healthcheck request to " ++ text) }
  match ← probe service text with
  | .ok () =>
    let healthy : Record := { level := .info, target, message := some (host ++ " is healthy") }
    pure ([asked, healthy], .ok ())
  | .error f => pure ([asked], .error f)

end FeedTraffic.Traffic.Preflight
