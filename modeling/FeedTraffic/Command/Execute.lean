import FeedTraffic.Command.Arguments
import FeedTraffic.Command.Report
import FeedTraffic.Log.Filter
import FeedTraffic.Settings.Load
import FeedTraffic.Traffic.Attack
import FeedTraffic.Traffic.Preflight

/-!
# Commands at work

The version is printed without a look at the settings; every other command fails when they cannot
be loaded.  Profiles are printed without a request.  A load test may ask for the health of the
host first.
-/

namespace FeedTraffic.Command

open FeedTraffic.Http FeedTraffic.Log FeedTraffic.Settings FeedTraffic.Traffic

inductive Ending where
  | success
  /-- The arguments make no sense; the text says why. -/
  | usage (text : String)
  /-- An error with what lies behind it. -/
  | failure (message : String) (causes : List String)
  /-- A number ran over. -/
  | overflow
  deriving DecidableEq, Repr

namespace Ending

def exitCode : Ending → Nat
  | success => 0
  | usage _ => 1
  | failure _ _ => 1
  | overflow => 101

def indented (first others text : String) : String :=
  first ++ ("\n" ++ others).intercalate (text.splitOn "\n")

/-- A list of causes, numbered if there is more than one. -/
def causesText : List String → String
  | [] => ""
  | [cause] => "\nCaused by:\n" ++ indented "    " "    " cause ++ "\n"
  | causes =>
    "\nCaused by:\n" ++ String.join (causes.zipIdx.map fun (cause, n) =>
      indented (Text.padLeft 5 (toString n) ++ ": ") "       " cause ++ "\n")

def text : Ending → String
  | success => ""
  | usage text => text ++ "\nRun " ++ program ++ " --help for more information.\n"
  | failure message causes => "Error: " ++ message ++ "\n" ++ causesText causes
  | overflow => "attempt to add with overflow\n"

end Ending

structure Result where
  output : String := ""
  /-- Notes on the log's own settings. -/
  notices : List String := []
  /-- The records that the log lets through, as they are written. -/
  log : List String := []
  ending : Ending := .success
  deriving DecidableEq, Repr

/-- What is printed beside the output, apart from the log. -/
def Result.errors (r : Result) : String := String.join r.notices ++ r.ending.text

/-- What a failed load ends a command with. -/
def loadEnding (e : LoadError) : Ending :=
  let context := "failed to load configuration"
  match e with
  | .yaml file => .failure context ["no mapping in " ++ file ++ " YAML file"]
  | .mismatch ⟨.overflow, _, _⟩ => .overflow
  | .mismatch m => .failure context [m.message]
  | .invalid f => .failure f.message []

def logVariable : String := "RUST_LOG"

/-- A result without its log, and the records of the command. -/
abbrev Recorded := Result × List Record

def configRecord (config : Config) : Record :=
  { level := .debug, target := "feedload::cli", fields := [("config", .shown config.dump)] }

def printProfiles (config : Config) : Result :=
  match config.profiles.enabled config.followingFeed with
  | .error e => { ending := .failure e.message [] }
  | .ok ps =>
    match Report.profiles? ps with
    | some output => { output }
    | none => { ending := .overflow }

variable {σ : Type}

def checkHealth (service : Service σ) (config : Config) : StateM (Scene σ) Recorded := do
  let scene ← get
  let ((records, outcome), state) := Preflight.check service config.host scene.service
  set { scene with service := state }
  match outcome with
  | .ok () => pure ({}, records)
  | .error f => pure ({ ending := .failure f.message f.causes }, records)

def attack (service : Service σ) (course : Attack.Course) (config : Config) :
    StateM (Scene σ) Recorded := do
  let (records, outcome) ← Attack.run service course config
  match outcome with
  | .ok totals => pure ({ output := Report.totals totals.summarize }, records)
  | .error f => pure ({ ending := .failure f.message f.causes }, records)

/-- Runs a load test, after a look at the host's health if that is asked for. -/
def runTest (service : Service σ) (course : Attack.Course) (config : Config) :
    StateM (Scene σ) Recorded := do
  if config.preflight then
    let (checked, before) ← checkHealth service config
    if checked.ending = .success then
      let (result, records) ← attack service course config
      pure (result, before ++ records)
    else pure (checked, before)
  else attack service course config

/-- A result with the records that the log lets through. -/
def withLog (config : Config) (setting : Option String) (recorded : Recorded) : Result :=
  let gate := Gate.ofSettings config.logging.level setting
  { recorded.1 with
    notices := gate.ignored.map fun (text, fault) =>
      "ignoring `" ++ text ++ "`: " ++ fault.message ++ "\n"
    log := ((configRecord config :: recorded.2).filter gate.admits).map
      config.logging.format.write }

/-- Does what a command is for, with settings that are loaded already. -/
def Verb.perform (verb : Verb) (service : Service σ) (course : Attack.Course)
    (setting : Option String) (config : Config) : StateM (Scene σ) Result := do
  match verb with
  | .version => pure { output := release ++ "\n" }
  | .profiles => pure (printProfiles config)
  | .healthcheck => do
    let recorded ← checkHealth service config
    pure (withLog config setting recorded)
  | .run => do
    let recorded ← runTest service course config
    pure (withLog config setting recorded)

/-- Does what the program is asked to do, with a settings file if there is one, and an
environment.  If that is a load test, it takes the given course. -/
def Invocation.perform (i : Invocation) (service : Service σ) (course : Attack.Course)
    (file : Option File) (env : List (String × String)) : StateM (Scene σ) Result := do
  if i.verb = .version then pure { output := release ++ "\n" }
  else match load file env with
    | .error e => pure { ending := loadEnding e }
    | .ok config => i.verb.perform service course (env.lookup logVariable) config

/-- What arguments come to without the settings: help, a refusal, or something to do. -/
def Arguments.Reading.settle : Arguments.Reading → Result ⊕ Invocation
  | .help topic => .inl { output := helpText topic ++ "\n" }
  | .refused fault => .inl { ending := .usage fault.message }
  | .invoke i => .inr i

end FeedTraffic.Command
