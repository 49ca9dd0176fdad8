import FeedTraffic.Log.Level
import FeedTraffic.Number.Shortest
import FeedTraffic.User.Profile

/-!
# The configuration of a load test

All settings with their defaults, the check that they make a meaningful test, and a dump of them
on one line.
-/

namespace FeedTraffic.Settings

open FeedTraffic.Feed FeedTraffic.Number FeedTraffic.Time FeedTraffic.User

structure Logging where
  /-- The least severe level that is written. -/
  level : Log.Level := .info
  format : Log.Format := .auto
  deriving DecidableEq, Repr

structure Config where
  /-- Base address of the feed. -/
  host : String := "http://127.0.0.1:8080"
  /-- Virtual users at the same time. -/
  users : Nat := 10
  /-- Virtual users started per second. -/
  hatchRate : Binary64 := .ofNat 1
  /-- Time to go on after all users have started. -/
  runTime : Duration := .ofSeconds 60
  keepRampUpMetrics : Bool := true
  reportFile : Option String := none
  /-- Requests per second of all users together, at most. -/
  throttleRequests : Option Nat := none
  /-- Whether the health endpoint is asked before a test. -/
  preflight : Bool := true
  /-- Whether tasks browse the following feed. -/
  followingFeed : Bool := false
  samples : Samples := .default
  profiles : Roster := {}
  logging : Logging := {}
  deriving DecidableEq, Repr

namespace Config

inductive Fault where
  | noHost
  | noUsers
  | hatchRate
  | runTime
  | samples (fault : Samples.Fault)
  deriving DecidableEq, Repr

def Fault.message : Fault → String
  | .noHost => "host must not be empty"
  | .noUsers => "users must be at least 1"
  | .hatchRate => "hatch_rate must be positive"
  | .runTime => "run_time must be at least one second"
  | .samples f => f.message

/-- Refuses a configuration that cannot make a meaningful test.  The first fault counts. -/
def validate (c : Config) : Except Fault Unit :=
  if c.host.isEmpty then .error .noHost
  else if c.users = 0 then .error .noUsers
  else if !c.hatchRate.isPositive then .error .hatchRate
  else if c.runTime.seconds = 0 then .error .runTime
  else c.samples.validate.mapError .samples

/-! ## Dumps -/

def optionDump (inner : Option String) : String :=
  match inner with
  | none => "None"
  | some s => "Some(" ++ s ++ ")"

def listDump (items : List String) : String := "[" ++ ", ".intercalate items ++ "]"

def recordDump (name : String) (fields : List (String × String)) : String :=
  name ++ " \x7b " ++ ", ".intercalate (fields.map fun (k, v) => k ++ ": " ++ v) ++ " \x7d"

def samplesDump (s : Samples) : String :=
  recordDump "SampleData"
    [("pubkeys", listDump (s.pubkeys.map Text.Literal.quoted)),
     ("post_ids", listDump (s.postIds.map Text.Literal.quoted)),
     ("fallback_post_id", Text.Literal.quoted s.fallbackPostId)]

def overridesDump (o : Overrides) : String :=
  recordDump "ProfileConfig"
    [("enabled", toString o.enabled),
     ("weight", optionDump (o.weight.map toString)),
     ("wait_time", optionDump (o.wait.map Profile.waitDump))]

def rosterDump (r : Roster) : String :=
  recordDump "Profiles"
    [("api", overridesDump r.api), ("heavy", overridesDump r.heavy),
     ("realistic", overridesDump r.realistic), ("website", overridesDump r.website),
     ("social", overridesDump r.social)]

def loggingDump (l : Logging) : String :=
  recordDump "Logging"
    [("level", "LevelFilter::" ++ l.level.label), ("format", l.format.label)]

def dump (c : Config) : String :=
  recordDump "Config"
    [("host", Text.Literal.quoted c.host), ("users", toString c.users),
     ("hatch_rate", c.hatchRate.general), ("run_time", c.runTime.text),
     ("keep_ramp_up_metrics", toString c.keepRampUpMetrics),
     ("report_file", optionDump (c.reportFile.map Text.Literal.quoted)),
     ("throttle_requests", optionDump (c.throttleRequests.map toString)),
     ("preflight", toString c.preflight), ("following_feed", toString c.followingFeed),
     ("samples", samplesDump c.samples), ("profiles", rosterDump c.profiles),
     ("logging", loggingDump c.logging)]

end Config

end FeedTraffic.Settings
