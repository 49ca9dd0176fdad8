import FeedTraffic.Command.Usage

/-!
# Arguments of the command line

Options come before the command and the command comes last.  A request for help is kept in mind
until the arguments end, so that it may be about the command that follows.
-/

namespace FeedTraffic.Command

structure Invocation where
  /-- The path of the settings file. -/
  config : Option String := none
  verb : Verb
  deriving DecidableEq, Repr

namespace Arguments

inductive Fault where
  | unrecognized (arg : String)
  | afterHelp
  | noValue (option : String)
  | duplicate (option value : String)
  | noCommand
  deriving DecidableEq, Repr

def Fault.message : Fault → String
  | unrecognized arg => "Unrecognized argument: " ++ arg ++ "\n"
  | afterHelp => "Trailing arguments are not allowed after `help`."
  | noValue option => "No value provided for option '" ++ option ++ "'.\n"
  | duplicate option value =>
    "Error parsing option '" ++ option ++ "' with value '" ++ value ++
      "': duplicate values provided\n"
  | noCommand =>
    "One of the following subcommands must be present:\n" ++
      String.join (("help" :: Verb.all.map Verb.name).map fun s => "    " ++ s ++ "\n")

inductive Reading where
  | help (topic : Option Verb)
  | refused (fault : Fault)
  | invoke (i : Invocation)
  deriving DecidableEq, Repr

def isHelp (arg : String) : Bool := arg == "--help" || arg == "help"

def isConfig (arg : String) : Bool := arg == "-c" || arg == "--config"

/-- Reads what follows a command, which has no options. -/
def ofVerb (i : Invocation) (help ended : Bool) : List String → Reading
  | [] => if help then .help (some i.verb) else .invoke i
  | arg :: rest =>
    if !ended && isHelp arg then ofVerb i true ended rest
    else if !ended && arg == "--" then ofVerb i help true rest
    else if !ended && arg.startsWith "-" && help then .refused .afterHelp
    else .refused (.unrecognized arg)

def ofList (config : Option String) (help ended : Bool) : List String → Reading
  | [] => if help then .help none else .refused .noCommand
  | arg :: rest =>
    if !ended && isHelp arg then ofList config true ended rest
    else if !ended && arg == "--" then ofList config help true rest
    else if !ended && arg.startsWith "-" then
      if help then .refused .afterHelp
      else if isConfig arg then
        match rest with
        | [] => .refused (.noValue arg)
        | value :: rest =>
          if config.isSome then .refused (.duplicate arg value)
          else ofList (some value) help ended rest
      else .refused (.unrecognized arg)
    else match Verb.ofName? arg with
      | some verb => ofVerb { config, verb } help false rest
      | none => .refused (.unrecognized arg)

def read (args : List String) : Reading := ofList none false false args

end Arguments

end FeedTraffic.Command
