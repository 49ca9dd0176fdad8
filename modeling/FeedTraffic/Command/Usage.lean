import FeedTraffic.Text.Style

/-!
# Commands and their help

The program has four commands.  Help lists the options, and the commands unless it is about one of
them.
-/

namespace FeedTraffic.Command

def program : String := "feedload"

def release : String := "0.1.0"

inductive Verb where
  | run
  | healthcheck
  | profiles
  | version
  deriving DecidableEq, Repr

namespace Verb

def all : List Verb := [run, healthcheck, profiles, version]

def name : Verb → String
  | run => "run"
  | healthcheck => "healthcheck"
  | profiles => "profiles"
  | version => "version"

def description : Verb → String
  | run => "run a load test against the configured host"
  | healthcheck => "check that the configured host answers its health endpoint"
  | profiles => "print the enabled profiles and their task mix"
  | version => "print the feedload version"

def ofName? (s : String) : Option Verb := all.find? (·.name == s)

end Verb

/-! ## Help -/

def row (name description : String) : String :=
  "  " ++ Text.padRight 18 name ++ description ++ "\n"

def helpRow : String := row "--help, help" "display usage information"

def programHelp : String :=
  "Usage: " ++ program ++ " [-c <config>] <command> [<args>]\n\n" ++
    "Load generator for the social feed API.\n\n" ++
    "Options:\n" ++ row "-c, --config" "path to the YAML configuration file" ++ helpRow ++
    "\nCommands:\n" ++ String.join (Verb.all.map fun v => row v.name v.description)

def Verb.help (v : Verb) : String :=
  "Usage: " ++ program ++ " " ++ v.name ++ "\n\n" ++ v.description ++ "\n\nOptions:\n" ++ helpRow

def helpText : Option Verb → String
  | none => programHelp
  | some v => v.help

end FeedTraffic.Command
