import FeedTraffic.Number.Binary64
import FeedTraffic.Text.Style
import FeedTraffic.Traffic.Totals
import FeedTraffic.User.Profile

/-!
# What commands print

The profiles with the share of each of their tasks, and the totals of a load test.
-/

namespace FeedTraffic.Command.Report

open FeedTraffic.Text FeedTraffic.Traffic FeedTraffic.User

def line (s : String) : String := s ++ "\n"

/-- A share in per cent with one decimal. -/
def percent (part whole : Nat) : String :=
  let tenths := Number.Binary64.roundHalfEven (part * 1000) whole
  toString (tenths / 10) ++ "." ++ toString (tenths % 10)

def task (p : Profile) (t : Task) : String :=
  "  " ++ padRight 24 t.recipe.name ++ " " ++ padLeft 3 (toString t.weight) ++ "  " ++
    padLeft 5 (percent t.weight p.totalTaskWeight) ++ "%  " ++
    Style.paint [.dim] t.recipe.endpoint.path

def profile (total : Nat) (p : Profile) : String :=
  "\n" ++
    line (Style.paint [.bold] "## Profile" ++ " " ++ Style.paint [.bold, .blue] p.name ++
      " (weight " ++ Style.paint [.bold] (toString p.weight) ++ " of " ++ toString total ++
      ", waits " ++ p.wait.text ++ ")") ++
    String.join (p.tasks.map fun t => line (task p t))

/-- All profiles; none if their weights cannot be added up. -/
def profiles? (ps : List Profile) : Option String :=
  (sumWeights (ps.map (·.weight))).map fun total => String.join (ps.map (profile total))

def count (c : Count) : String :=
  let failures :=
    if 0 < c.failures then
      ", " ++ Style.paint [.bold, .red] (toString c.failures ++ " FAILURES")
    else ""
  Style.paint [.bold] c.name ++ " (" ++ toString c.successes ++ " passed" ++ failures ++ ")"

def totals (cs : List Count) : String :=
  let failures := Totals.failures cs
  let overall := toString (Totals.successes cs) ++ " passed, " ++ toString failures ++ " failed"
  "\n" ++ line (Style.paint [.bold] "## TOTALS") ++ String.join (cs.map fun c => line (count c)) ++
    "\n" ++ line (Style.paint [.bold, if 0 < failures then .red else .green] overall)

end FeedTraffic.Command.Report
