import FeedTraffic.Command.Execute
import FeedTraffic.Settings.Location
import Std.Time.DateTime.Timestamp

/-!
# The program

Gathers arguments, settings file, environment, clock and random words, runs the command, and
prints what it leaves behind.  There is no network here, so no request has an answer, and a load
test is one round.
-/

namespace FeedTraffic.Main

open FeedTraffic.Command FeedTraffic.Settings FeedTraffic.Traffic

def readText? (path : String) : IO (Option String) := do
  try
    let bytes ← IO.FS.readBinFile path
    pure (some (String.ofList (Text.Utf8.decode bytes.toList)))
  catch _ => pure none

def findFile (path : String) : IO (Option File) := do
  let directory ← IO.currentDir
  for place in Location.candidates directory.toString path do
    if let some text ← readText? place then
      return some ⟨Location.shown directory.toString place, text⟩
  return none

def environment : IO (List (String × String)) := do
  let text ← readText? "/proc/self/environ"
  pure (Variable.assigned (Variable.ofBlock (text.getD "")))

/-- Seconds since the epoch. -/
def clock : IO Nat := do
  let time ← Std.Time.Timestamp.now
  pure time.toSecondsSinceUnixEpoch.val.toNat

def words : IO Random.Words := do
  let bytes ← IO.getRandomBytes 8
  pure (.seeded (bytes.toList.foldl (fun seed b => seed * 256 + b.toUInt64) 0))

def perform (i : Invocation) : IO Result := do
  let file ← match i.config with
    | some path => findFile path
    | none => pure none
  let course : Attack.Course := .round (← clock)
  let scene : Scene Unit := { words := ← words, service := () }
  pure (i.perform Http.Service.unreachable course file (← environment) scene).1

end FeedTraffic.Main

open FeedTraffic in
def main (args : List String) : IO UInt32 := do
  let result ← match (Command.Arguments.read args).settle with
    | .inl result => pure result
    | .inr i => Main.perform i
  IO.print result.output
  IO.eprint (String.join result.notices)
  for line in result.log do
    IO.eprintln line
  IO.eprint result.ending.text
  pure result.ending.exitCode.toUInt32
