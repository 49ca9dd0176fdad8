import FeedTraffic.Feed.Request
import FeedTraffic.Text.Utf8

/-!
# Verdicts on answers

An answer passes when its status is what the request expects.  The message of a failure names the
status and quotes the body, cut after at most 512 bytes between two characters.
-/

namespace FeedTraffic.Feed

inductive Verdict where
  | pass
  | fail (message : String)
  deriving DecidableEq, Repr

namespace Verdict

/-- The bytes of a body that a message quotes at most. -/
def quotedBytes : Nat := 512

def quote (body : String) : String := String.ofList (Text.Utf8.takeBytes quotedBytes body.toList)

/-- What a failure message says in front of the body. -/
def preamble (expect : Expectation) (status : Nat) : String :=
  match expect with
  | .ok => "Got " ++ toString status ++ ": "
  | .clientError =>
    if status = 200 then "Expected error but got 200: "
    else "Unexpected status " ++ toString status ++ ": "

def accepts (expect : Expectation) (status : Nat) : Bool :=
  match expect with
  | .ok => status == 200
  | .clientError => status == 400 || status == 404

def classify (status : Nat) (expect : Expectation) (body : String) : Verdict :=
  if accepts expect status then .pass else .fail (preamble expect status ++ quote body)

end Verdict

end FeedTraffic.Feed
