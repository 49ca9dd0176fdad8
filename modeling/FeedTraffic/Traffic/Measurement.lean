import FeedTraffic.Feed.Verdict
import FeedTraffic.Http.Exchange

/-!
# Sending and measuring

A request is sent to its endpoint below a base address.  What is measured of it first is whether
the answer has a status of success.  When the verdict on the answer says otherwise, a second
measurement takes the place of the first.  A request without an answer is measured as a failure
and has no verdict.
-/

namespace FeedTraffic.Traffic

open FeedTraffic.Feed FeedTraffic.Http

structure Measurement where
  /-- The path of the endpoint, whatever the parameters and redirects. -/
  name : String
  /-- The status of the last answer; zero without an answer. -/
  status : Nat
  success : Bool
  /-- Whether this takes the place of the measurement before. -/
  update : Bool := false
  error : String := ""
  deriving DecidableEq, Repr

namespace Measurement

/-- What is measured of a request without an answer. -/
def ofLoss (name : String) : Measurement := { name, status := 0, success := false }

/-- What is measured of an answer before there is a verdict. -/
def ofStatus (name : String) (status : Nat) : Measurement :=
  if Status.isSuccess status then { name, status, success := true }
  else { name, status, success := false, error := Status.text status ++ ": " ++ name }

/-- A measurement that counts as passed; the text of its error stays. -/
def passed (m : Measurement) : Measurement := { m with success := true, update := true }

/-- A measurement that counts as failed. -/
def failed (m : Measurement) (message : String) : Measurement :=
  { m with success := false, update := true, error := message }

end Measurement

inductive Outcome where
  | passed (body : String)
  /-- There was no answer. -/
  | lost (cause : Failure) (address : Url)
  /-- The answer was not the expected one. -/
  | failed (last : Measurement) (message : String)
  deriving DecidableEq, Repr

structure Sent where
  request : Request
  measurements : List Measurement
  outcome : Outcome
  deriving DecidableEq, Repr

namespace Sent

/-- The last measurement of a request whose verdict was a failure. -/
def failure? (s : Sent) : Option Measurement :=
  match s.outcome with
  | .failed last _ => some last
  | _ => none

/-- The measurement that a task ends with: that of the request whose verdict was a failure, if there
is one. -/
def ending? (turn : List Sent) : Option Measurement := turn.findSome? (·.failure?)

def body? (s : Sent) : Option String :=
  match s.outcome with
  | .passed body => some body
  | _ => none

def ofResponse (r : Request) (answer : Response) : Sent :=
  let raw := Measurement.ofStatus r.endpoint.path answer.status
  match Verdict.classify answer.status r.expect answer.text with
  | .pass => ⟨r, if raw.success then [raw] else [raw, raw.passed], .passed answer.text⟩
  | .fail message =>
    let last := if raw.success then raw.failed message else raw
    ⟨r, if raw.success then [raw, last] else [raw], .failed last message⟩

def ofReply (r : Request) : Reply → Sent
  | .answered answer => ofResponse r answer
  | .failed cause address => ⟨r, [.ofLoss r.endpoint.path], .lost cause address⟩

theorem ofResponse_request (r : Request) (answer : Response) :
    (ofResponse r answer).request = r := by
  simp only [ofResponse]
  split <;> rfl

theorem ofReply_request (r : Request) (reply : Reply) : (ofReply r reply).request = r := by
  cases reply with
  | answered answer => exact ofResponse_request r answer
  | failed => rfl

end Sent

/-- Where a request goes: the path of its endpoint takes the place of the base's own. -/
def address (base : Url) (r : Request) : Url :=
  { base with
    path := r.endpoint.path
    query := if r.params.isEmpty then none else some (Form.encode r.params)
    fragment := none }

theorem address_target (base : Url) (r : Request) :
    (address base r).target =
      r.endpoint.path ++ if r.params.isEmpty then "" else "?" ++ Form.encode r.params := by
  by_cases h : r.params.isEmpty <;> simp [address, Url.target, h]

/-- Sends a request below a base that requests can be sent to, as those with HTTP schemes can. -/
def send {σ : Type} (service : Service σ) (base : Url) (r : Request) : StateM σ Sent := do
  let reply ← exchange service (address base r)
  pure (Sent.ofReply r reply)

/-- Sends requests one after another, up to the first whose verdict is a failure. -/
def sendAll {σ : Type} (service : Service σ) (base : Url) : List Request → StateM σ (List Sent)
  | [] => pure []
  | r :: rs => do
    let s ← send service base r
    if s.failure?.isSome then pure [s]
    else
      let rest ← sendAll service base rs
      pure (s :: rest)

theorem send_request {σ : Type} (service : Service σ) (base : Url) (r : Request) (s : σ) :
    (send service base r s).1.request = r := Sent.ofReply_request r _

theorem sendAll_cons {σ : Type} (service : Service σ) (base : Url) (r : Request)
    (rs : List Request) (s : σ) :
    sendAll service base (r :: rs) s =
      let first := send service base r s
      let rest := sendAll service base rs first.2
      if first.1.failure?.isSome then ([first.1], first.2) else (first.1 :: rest.1, rest.2) := by
  rcases sending : send service base r s with ⟨sent, after⟩
  by_cases h : sent.failure?.isSome
  · simp only [sendAll, bind, StateT.bind, sending, h, if_true]
    rfl
  · simp only [sendAll, bind, StateT.bind, sending, h]
    rfl

/-- What is sent is a beginning of what there is to send. -/
theorem sendAll_isPrefix {σ : Type} (service : Service σ) (base : Url) (rs : List Request)
    (s : σ) : ((sendAll service base rs s).1.map (·.request)).IsPrefix rs := by
  induction rs generalizing s with
  | nil => exact List.prefix_rfl
  | cons r rs ih =>
    have first := send_request service base r s
    rw [sendAll_cons]
    by_cases h : (send service base r s).1.failure?.isSome
    · simp [h, first]
    · simpa [h, first, List.cons_prefix_cons] using ih _

end FeedTraffic.Traffic
