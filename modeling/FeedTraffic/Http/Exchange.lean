import FeedTraffic.Http.Status
import FeedTraffic.Http.Url
import FeedTraffic.Text.Utf16

/-!
# Exchanges with a service

A service turns an address into a response or a failure and may remember what it was asked.  A
client follows redirects from one address to the next, up to ten requests in all.
-/

namespace FeedTraffic.Http

structure Response where
  status : Nat := 200
  /-- Where a redirect leads. -/
  location : Option String := none
  body : List UInt8 := []
  /-- How a client reads the body.  The type of its content may name a character set; if it does
  not, the body is read by its byte order mark. -/
  decode : List UInt8 → List Char := Text.decodeBody

namespace Response

def text (r : Response) : String := String.ofList (r.decode r.body)

def ofText (status : Nat) (body : String) : Response :=
  { status, body := Text.Utf8.encode body.toList }

end Response

inductive Failure where
  /-- There is no way to the host. -/
  | unreachable
  /-- The connection was closed without an answer. -/
  | dropped
  /-- Ten requests were answered with redirects. -/
  | redirects
  /-- The address is of a scheme that the client does not speak. -/
  | scheme
  deriving DecidableEq, Repr

/-- What a client tells of a failure at an address, from the request down to the cause. -/
def Failure.causes (u : Url) : Failure → List String
  | unreachable =>
    ["error sending request for url (" ++ u.toText ++ ")", "client error (Connect)",
     "tcp connect error", "Network is unreachable (os error 101)"]
  | dropped =>
    ["error sending request for url (" ++ u.toText ++ ")", "client error (SendRequest)",
     "connection closed before message completed"]
  | redirects => ["error following redirect for url (" ++ u.toText ++ ")", "too many redirects"]
  | scheme => ["builder error for url (" ++ u.toText ++ ")", "URL scheme is not allowed"]

/-- What comes of a request: a response, or a failure at an address. -/
inductive Reply where
  | answered (r : Response)
  | failed (cause : Failure) (address : Url)

abbrev Service (σ : Type) := Url → StateM σ (Except Failure Response)

/-- The service of a machine without a network. -/
def Service.unreachable {σ : Type} : Service σ := fun _ => pure (.error .unreachable)

/-- What a client makes of requests under a scheme that it does not speak: none of them is sent. -/
def Service.refusing {σ : Type} : Service σ := fun _ => pure (.error .scheme)

/-- Requests that a client sends at most for one. -/
def maxRequests : Nat := 10

/-- Where a response sends the client, if it does. -/
def Response.next? (r : Response) (u : Url) : Option Url :=
  if Status.isRedirect r.status then
    match r.location.map u.join with
    | some (.ok v) => some v
    | _ => none
  else none

/-- Sends a request and follows redirects, with a number of requests left. -/
def follow {σ : Type} (service : Service σ) : Nat → Url → StateM σ Reply
  | 0, u => pure (.failed .redirects u)
  | left + 1, u => do
    match ← service u with
    | .error cause => pure (.failed cause u)
    | .ok r =>
      match r.next? u with
      | none => pure (.answered r)
      | some v => if left = 0 then pure (.failed .redirects u) else follow service left v

/-- Sends a request to an address.  The user of an address is no part of what is asked for. -/
def exchange {σ : Type} (service : Service σ) (u : Url) : StateM σ Reply :=
  follow service maxRequests u.withoutUser

/-! ## Scripted services -/

/-- What a script says to a request. -/
inductive Cue where
  | respond (r : Response)
  | drop

/-- A script and the addresses of the requests so far.  The last cue repeats; an empty script
answers every request with success and no body. -/
structure Script where
  cues : List Cue := []
  received : List Url := []

namespace Script

def current (s : Script) : Cue :=
  match s.cues[s.received.length]? with
  | some c => c
  | none => s.cues.getLastD (.respond {})

/-- The service that plays a script. -/
def service : Service Script := fun u => do
  let s ← get
  set { s with received := s.received ++ [u] }
  match s.current with
  | .respond r => pure (.ok r)
  | .drop => pure (.error .dropped)

end Script

end FeedTraffic.Http
