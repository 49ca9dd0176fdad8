import FeedTraffic.Settings.Config
import FeedTraffic.Traffic.Journal
import FeedTraffic.Traffic.Totals

/-!
# Load tests

A load test puts in the samples, turns every profile that takes part into a scenario, and lets
visitors go to the host.  It is refused when there is nothing to run, when a profile has no
scenario, or when its options or its host make no sense; the samples are put in all the same.

Which visitor does what, and when, is not for the settings to say, nor is the end of the test.  All
this is the course of a test, of which nothing is assumed.  A visitor's turn is one action with all
its requests.  The turns of all visitors come one after another in any order, and the service may
answer as if others had asked in between.  An order that goes by the answers is one of these too,
in every single test.
-/

namespace FeedTraffic.Traffic

open FeedTraffic.Http FeedTraffic.Log FeedTraffic.Settings FeedTraffic.User

namespace Attack

/-- Why a load test does not start. -/
inductive Refusal where
  | noProfiles
  | scenario (fault : Scenario.Fault)
  | option
  | host (fault : AddressFault)
  deriving DecidableEq, Repr

def Refusal.message : Refusal → String
  | noProfiles => NoProfiles.mk.message
  | scenario fault => fault.message
  | option => "load test failed"
  | host _ => "load test failed"

def Refusal.causes : Refusal → List String
  | noProfiles => []
  | scenario _ => []
  | option => ["GooseError: invalid option or value specified"]
  | host fault =>
    ["GooseError: failed to parse hostname (" ++ fault.message ++ ")", fault.message]

/-- Why a load test has no totals. -/
inductive Fault where
  | refused (r : Refusal)
  /-- It was started and came to grief. -/
  | broken (causes : List String)
  deriving DecidableEq, Repr

def Fault.message : Fault → String
  | refused r => r.message
  | broken _ => "load test failed"

def Fault.causes : Fault → List String
  | refused r => r.causes
  | broken causes => causes

def target : String := "feedload::attack"

/-! ## Before the start -/

/-- Puts in the samples; a different set that is there already stays, which is worth a record. -/
def install {σ : Type} (config : Config) : StateM (Scene σ) (List Record) := do
  let scene ← get
  let (same, store) := scene.store.install config.samples
  set { scene with store }
  if same then pure []
  else
    pure [{ level := .warn, target
            message := some "sample data was installed before, keeping the previous set" }]

def profileRecord (p : Profile) : Record :=
  { level := .info, target, message := some "registering profile"
    fields := [("profile", .text p.name), ("weight", .count p.weight),
      ("tasks", .count p.tasks.length)] }

/-- The scenarios of profiles, with the records of all profiles up to the first without one. -/
def register : List Profile → List Record × Except Scenario.Fault (List Scenario)
  | [] => ([], .ok [])
  | p :: ps =>
    match Scenario.ofProfile p with
    | .error fault => ([profileRecord p], .error fault)
    | .ok s =>
      let (records, rest) := register ps
      (profileRecord p :: records, rest.map (s :: ·))

def scenarios (config : Config) : List Record × Except Refusal (List Scenario) :=
  match config.profiles.enabled config.followingFeed with
  | .error _ => ([], .error .noProfiles)
  | .ok ps => (register ps).map id (·.mapError .scenario)

def startRecord (config : Config) : Record :=
  { level := .info, target, message := some "starting load test"
    fields := [("host", .shown config.host), ("users", .count config.users),
      ("run_time", .shown config.runTime.text)] }

/-- The most requests per second that can be asked for. -/
def maxThrottle : Nat := 1000000

/-- The address of the host, if all options make sense. -/
def base (config : Config) : Except Refusal Url :=
  if config.users = 0 ∨ config.hatchRate = .ofNat 0 ∨ config.host = ""
      ∨ config.throttleRequests.any (maxThrottle < ·) then
    .error .option
  else (Url.ofText config.host).mapError .host

/-- The scenarios and the address of a load test, or why it is refused, with the records. -/
def plan (config : Config) : List Record × Except Refusal (List Scenario × Url) :=
  let (records, found) := scenarios config
  match found with
  | .error r => (records, .error r)
  | .ok ss => (records ++ [startRecord config], (base config).map (ss, ·))

/-! ## The visits -/

/-- A turn of a visitor: an action and its time. -/
structure Turn where
  visitor : Nat
  now : Nat
  action : Action
  deriving DecidableEq, Repr

/-- What settings leave open about a load test: who does what and when, and how it ends. -/
structure Course where
  /-- The turns under these settings with these scenarios. -/
  turns : Config → List Scenario → List Turn
  /-- How many turns are over when all visitors are there. -/
  rampUp : Nat := 0
  /-- What breaks the test, if something does. -/
  failure : Option (List String) := none

/-- At one time, a visitor of each scenario, as far as there are users, does each action once. -/
def Course.round (now : Nat) : Course where
  turns config ss := (ss.take config.users).zipIdx.flatMap fun (s, visitor) =>
    s.steps.map fun step => ⟨visitor, now, step.action⟩

variable {σ : Type}

/-- The way to an address.  Only where requests can be sent is there a service. -/
def site (service : Service σ) (url : Url) : Site σ :=
  ⟨if url.isHttp then service else .refusing, url⟩

/-- Does an action.  No request has an address below an opaque one, so none is sent from there. -/
def attempt (site : Site σ) (now : Nat) (action : Action) :
    StateM (Visitor σ) (List Record × List Sent) := do
  match action with
  | .startSession => Visitor.recount site now .startSession
  | .run recipe =>
    if site.base.isOpaque then
      let _ ← Visitor.prepare now recipe
      pure ([], [])
    else Visitor.recount site now (.run recipe)

def takeTurn (site : Site σ) (turn : Turn) : StateM (Crowd σ) (List Record × List Sent) :=
  Crowd.lift turn.visitor (attempt site turn.now turn.action)

def visits (site : Site σ) (turns : List Turn) :
    StateM (Scene σ) (List (List Record × List Sent)) := do
  let scene ← get
  let (done, crowd) := (turns.mapM (takeTurn site)) { toScene := scene }
  set crowd.toScene
  pure done

def countRecord (c : Count) : Record :=
  { level := .info, target, message := some "request totals"
    fields := [("request", .shown c.name), ("successes", .count c.successes),
      ("failures", .count c.failures)] }

/-- The counts of a load test.  Unless the settings keep them, those from before all visitors were
there are dropped. -/
def totals (config : Config) (course : Course) (done : List (List Record × List Sent)) : Totals :=
  let kept := if config.keepRampUpMetrics then done else done.drop course.rampUp
  Totals.ofMeasurements (kept.flatMap fun turn => turn.2.flatMap (·.measurements))

def run (service : Service σ) (course : Course) (config : Config) :
    StateM (Scene σ) (List Record × Except Fault Totals) := do
  let installed ← install config
  let (planned, found) := plan config
  match found with
  | .error r => pure (installed ++ planned, .error (.refused r))
  | .ok (ss, url) =>
    let done ← visits (site service url) (course.turns config ss)
    let records := installed ++ planned ++ done.flatMap (·.1)
    match course.failure with
    | some causes => pure (records, .error (.broken causes))
    | none =>
      let totals := totals config course done
      pure (records ++ totals.summarize.map countRecord, .ok totals)

end Attack

end FeedTraffic.Traffic
