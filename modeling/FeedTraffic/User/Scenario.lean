import FeedTraffic.User.Profile

/-!
# Scenarios

A scenario is what virtual users of a profile run: first, once, the start of a session, then the
tasks of the profile by weight.  A profile without weight or with a pause whose bounds are out of
order has no scenario; bounds are compared in whole milliseconds.
-/

namespace FeedTraffic.User

open FeedTraffic.Time

inductive Action where
  | startSession
  | run (recipe : Recipe)
  deriving DecidableEq, Repr

structure Step where
  name : String
  weight : Nat
  /-- Whether the step is done once, when a user starts. -/
  onStart : Bool
  action : Action
  deriving DecidableEq, Repr

structure Scenario where
  name : String
  weight : Nat
  wait : WaitTime
  steps : List Step
  deriving DecidableEq, Repr

namespace Scenario

/-- Why a profile has no scenario. -/
inductive Fault where
  | weight
  | wait
  deriving DecidableEq, Repr

def Fault.message : Fault → String
  | .weight => "GooseError: invalid weight specified"
  | .wait => "GooseError: invalid wait_time specified"

def startStep : Step := ⟨"start_session", 1, true, .startSession⟩

def step (t : Task) : Except Fault Step :=
  if t.weight = 0 then .error .weight else .ok ⟨t.recipe.name, t.weight, false, .run t.recipe⟩

def ofProfile (p : Profile) : Except Fault Scenario := do
  if p.weight = 0 then throw .weight
  if !p.wait.isOrdered then throw .wait
  let steps ← p.tasks.mapM step
  pure ⟨p.name, p.weight, p.wait, startStep :: steps⟩

/-- The name in lower case, without anything but letters and digits. -/
def machineName (s : Scenario) : String :=
  String.ofList ((s.name.toList.filter Char.isAlphanum).map Char.toLower)

def find? (s : Scenario) (name : String) : Option Step := s.steps.find? (·.name == name)

end Scenario

end FeedTraffic.User
