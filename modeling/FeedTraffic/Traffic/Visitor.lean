import FeedTraffic.Traffic.Measurement
import FeedTraffic.User.Scenario

/-!
# Virtual users at work

A visitor performs the actions of a scenario.  It shares the samples, the random words and the
service with all others and has a session of its own, which begins with the first action that
needs one.  Only passed pages of the following feed that a visitor browsed add to what its session
remembers.  In a crowd every visitor has a number.
-/

namespace FeedTraffic.Traffic

open FeedTraffic.Feed FeedTraffic.Http FeedTraffic.Random FeedTraffic.User

/-- What all visitors share. -/
structure Scene (σ : Type) where
  store : SampleStore := {}
  words : Words
  /-- The state of the service. -/
  service : σ

/-- The scene as one visitor finds it, and the visitor's session. -/
structure Visitor (σ : Type) extends Scene σ where
  session : Option Session := none

structure Site (σ : Type) where
  service : Service σ
  base : Url

namespace Visitor

variable {σ : Type}

def draw {α : Type} (d : Draw α) : StateM (Visitor σ) α := do
  let v ← get
  let (a, words) := d v.words
  set { v with words }
  pure a

def samples : StateM (Visitor σ) Samples := do
  let v ← get
  let (s, store) := v.store.get
  set { v with store }
  pure s

/-- Begins a new session, whatever there was before. -/
def beginSession : StateM (Visitor σ) Session := do
  let known ← samples
  let session ← draw (Session.start known)
  modify fun v => { v with session := some session }
  pure session

/-- The session, which begins now if there is none yet. -/
def current : StateM (Visitor σ) Session := do
  match (← get).session with
  | some session => pure session
  | none => beginSession

def remember (body : String) : StateM (Visitor σ) Unit := do
  let session ← current
  modify fun v => { v with session := some (session.remember body).2 }

/-- Sends requests, up to the first whose verdict is a failure. -/
def submit (site : Site σ) (rs : List Request) : StateM (Visitor σ) (List Sent) := do
  let v ← get
  let (sent, service) := sendAll site.service site.base rs v.service
  set { v with service }
  pure sent

/-- The requests of a recipe, not sent yet. -/
def prepare (now : Nat) (recipe : Recipe) : StateM (Visitor σ) (List Request) := do
  let session ← current
  let known ← samples
  draw (recipe.requests ⟨known, session.requester, now⟩ session)

def perform (site : Site σ) (now : Nat) (recipe : Recipe) : StateM (Visitor σ) (List Sent) := do
  let rs ← prepare now recipe
  let sent ← submit site rs
  if recipe = .browseFollowingFeed then
    (sent.filterMap (·.body?)).forM remember
  pure sent

/-- Does an action at a time, and gives the requests that were sent. -/
def act (site : Site σ) (now : Nat) : Action → StateM (Visitor σ) (List Sent)
  | .startSession => do
    let _ ← beginSession
    pure []
  | .run recipe => perform site now recipe

/-- Does actions one after another, each at its time. -/
def run (site : Site σ) (actions : List (Nat × Action)) : StateM (Visitor σ) (List (List Sent)) :=
  actions.mapM fun (now, action) => act site now action

end Visitor

/-- What all visitors share, and the session of every visitor who has one. -/
structure Crowd (σ : Type) extends Scene σ where
  sessions : Nat → Option Session := fun _ => none

namespace Crowd

variable {σ : Type}

/-- The crowd as one visitor finds it. -/
def visitor (c : Crowd σ) (user : Nat) : Visitor σ :=
  { toScene := c.toScene, session := c.sessions user }

/-- The crowd after something that one visitor did. -/
def withVisitor (c : Crowd σ) (user : Nat) (v : Visitor σ) : Crowd σ :=
  { toScene := v.toScene
    sessions := fun other => if other = user then v.session else c.sessions other }

/-- Lets one visitor do something. -/
def lift {α : Type} (user : Nat) (m : StateM (Visitor σ) α) : StateM (Crowd σ) α := fun c =>
  let (a, v) := m (c.visitor user)
  (a, c.withVisitor user v)

end Crowd

end FeedTraffic.Traffic
