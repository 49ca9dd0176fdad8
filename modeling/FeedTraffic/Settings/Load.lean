import FeedTraffic.Settings.Schema
import FeedTraffic.Settings.Variable
import FeedTraffic.Yaml.Document

/-!
# Loading a configuration

A configuration is read from three trees, each over the one before: the defaults, a settings file,
and the environment.  A configuration that makes no meaningful test is refused.
-/

namespace FeedTraffic.Settings

open FeedTraffic.Feed FeedTraffic.User

/-! ## The defaults as a tree -/

def scalarOf (s : Scalar) : Value := .scalar .defaults s

def textOf (s : String) : Value := scalarOf (.text s)

def dictOf (es : List (String × Value)) : Value := .ofEntries .defaults es

def samplesTree (s : Samples) : Value :=
  dictOf
    [("pubkeys", .list .defaults (s.pubkeys.map textOf)),
     ("post_ids", .list .defaults (s.postIds.map textOf)),
     ("fallback_post_id", textOf s.fallbackPostId)]

/-- Settings of a profile without a weight and a pause of their own. -/
def switchTree (enabled : Bool) : Value :=
  dictOf
    [("enabled", scalarOf (.bool enabled)), ("weight", scalarOf .empty),
     ("wait_time", scalarOf .empty)]

def rosterTree (r : Roster) : Value :=
  dictOf
    [("api", switchTree r.api.enabled), ("heavy", switchTree r.heavy.enabled),
     ("realistic", switchTree r.realistic.enabled), ("website", switchTree r.website.enabled),
     ("social", switchTree r.social.enabled)]

def defaults : Value :=
  let c : Config := {}
  dictOf
    [("host", textOf c.host), ("users", scalarOf (.unsigned c.users)),
     ("hatch_rate", scalarOf (.float c.hatchRate)), ("run_time", textOf "1m"),
     ("keep_ramp_up_metrics", scalarOf (.bool c.keepRampUpMetrics)),
     ("report_file", scalarOf .empty), ("throttle_requests", scalarOf .empty),
     ("preflight", scalarOf (.bool c.preflight)),
     ("following_feed", scalarOf (.bool c.followingFeed)), ("samples", samplesTree c.samples),
     ("profiles", rosterTree c.profiles),
     ("logging", dictOf [("level", textOf c.logging.level.name),
       ("format", textOf c.logging.format.name)])]

/-! ## Loading -/

structure File where
  name : String
  text : String
  deriving DecidableEq, Repr

inductive LoadError where
  /-- The file is not YAML, or its document is no mapping. -/
  | yaml (file : String)
  | mismatch (m : Mismatch)
  | invalid (f : Config.Fault)
  deriving Repr

def fileTree (file : Option File) : Except LoadError Value :=
  match file with
  | none => .ok (.dict .defaults [])
  | some f =>
    match Yaml.settings? (.file f.name) f.text with
    | some v => .ok v
    | none => .error (.yaml f.name)

def merged (file : Value) (env : List (String × String)) : Value :=
  (defaults.over file).over (Variable.tree env)

def extract (tree : Value) : Except LoadError Config := (Read.config [] tree).mapError .mismatch

def load (file : Option File) (env : List (String × String)) : Except LoadError Config := do
  let tree ← fileTree file
  let config ← extract (merged tree env)
  config.validate.mapError .invalid
  pure config

end FeedTraffic.Settings
