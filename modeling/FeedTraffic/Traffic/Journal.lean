import FeedTraffic.Log.Record
import FeedTraffic.Traffic.Visitor

/-!
# What visitors leave in the log

The start of a session, a request without an answer, a failed verdict and the posts that a page
added are worth a record each.
-/

namespace FeedTraffic.Traffic

open FeedTraffic.Log FeedTraffic.User

namespace Sent

def records (recipe : Recipe) (s : Sent) : List Record :=
  let path := s.request.endpoint.path
  match s.outcome with
  | .lost cause address =>
    [{ level := .debug, target := "feedload::transport", message := some "request failed"
       fields := [("error", .shown ((cause.causes address).headD "")), ("endpoint", .text path)] }]
  | .failed last message =>
    [{ level := .trace, target := "feedload::transport", message := some message
       fields := [("endpoint", .text path), ("status", .count last.status)] }]
  | .passed body =>
    if recipe = .browseFollowingFeed then
      [{ level := .trace, target := "feedload::profiles::realistic"
         message := some "remembered posts from following feed"
         fields := [("remembered", .count (Session.discoveries body).length)] }]
    else []

end Sent

def sessionRecord (session : Session) : Record :=
  { level := .debug, target := "feedload::session", message := some "session started"
    fields := [("requester", .shown session.requester)] }

namespace Visitor

variable {σ : Type}

/-- Does an action and gives its records besides the requests. -/
def recount (site : Site σ) (now : Nat) (action : Action) :
    StateM (Visitor σ) (List Record × List Sent) := do
  let sent ← act site now action
  match action with
  | .startSession => pure ((← get).session.toList.map sessionRecord, sent)
  | .run recipe => pure (sent.flatMap (Sent.records recipe), sent)

end Visitor

end FeedTraffic.Traffic
