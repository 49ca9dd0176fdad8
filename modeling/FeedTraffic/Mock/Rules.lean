import FeedTraffic.Feed.Request
import FeedTraffic.Json.Writer
import FeedTraffic.Number.Whole

/-!
# Rules of the mock feed

What the feed takes for a well-formed request, and what it answers to one.  A requester is needed
everywhere but for the list of users, a limit has to lie between 1 and 100, and the details of a
post need its identifier of 64 hexadecimal digits.  The first rule that is broken names the
refusal.
-/

namespace FeedTraffic.Mock

open FeedTraffic.Feed

/-- The endpoints that need no parameter but the requester, and answer with a page. -/
def pagePaths : List String :=
  ["/get-posts", "/get-posts-watching", "/get-contents-following", "/get-replies", "/get-mentions",
   "/get-users", "/get-notifications", "/get-followed-users", "/get-users-following",
   "/get-users-followers"]

/-- All paths of the feed; the health endpoint is none of them. -/
def feedPaths : List String :=
  pagePaths ++ ["/get-post-details", "/get-user-details", "/get-notifications-count"]

/-- Parameters as they came.  A repeated name has its last value. -/
abbrev Params := List (String × String)

def Params.get? (ps : Params) (name : String) : Option String := ps.reverse.lookup name

inductive Refusal where
  | requester
  | limit
  | postId
  deriving DecidableEq, Repr

def maxLimit : Nat := 100

def Refusal.message : Refusal → String
  | requester => requesterKey ++ " is required"
  | limit => "limit must be between 1 and " ++ toString maxLimit
  | postId => "invalid post id"

/-- A number of 32 bits between 1 and the largest limit. -/
def isLimit (s : String) : Bool :=
  match Number.Whole.unsigned? (2 ^ 32 - 1) s.toList with
  | some n => 1 ≤ n && n ≤ maxLimit
  | none => false

/-- An identifier of 64 hexadecimal digits. -/
def isPostId (s : String) : Bool := s.toList.length == 64 && s.toList.all Text.Hex.isDigit

/-! ## Answers -/

def postsPerPage : Nat := 3

/-- The identifier of a post of a page, counted from 1. -/
def postId (n : Nat) : String := String.ofList (Text.Hex.padded 64 n)

def cursor (ps : Params) (name : String) : Json :=
  match ps.get? name with
  | some s => .ofString s
  | none => .null

/-- A page: its cursors come back as they were sent. -/
def page (ps : Params) : Json :=
  let posts := (List.range postsPerPage).map fun k =>
    Json.object [Json.member "id" (.ofString (postId (k + 1)))]
  .object
    [Json.member "pagination" (.object
      [Json.member "after" (cursor ps "after"), Json.member "before" (cursor ps "before"),
       Json.member "hasMore" (.bool false)]),
     Json.member "posts" (.array posts)]

def zero : Json := .number ['0']

def postDetails (id : String) : Json :=
  .object
    [Json.member "counts" (.object [Json.member "likes" zero, Json.member "replies" zero]),
     Json.member "post" (.object [Json.member "id" (.ofString id)])]

def userDetails (ps : Params) : Json :=
  .object [Json.member "user" (.object [Json.member "pubkey" (cursor ps "user")])]

def errorBody (message : String) : Json := .object [Json.member "error" (.ofString message)]

def respond (path : String) (ps : Params) : Except Refusal Json :=
  if path ≠ "/get-users" ∧ (ps.get? requesterKey).isNone then .error .requester
  else if (ps.get? "limit").any (!isLimit ·) then .error .limit
  else if path = "/get-post-details" then
    let id := (ps.get? "id").getD ""
    if isPostId id then .ok (postDetails id) else .error .postId
  else if path = "/get-user-details" then .ok (userDetails ps)
  else if path = "/get-notifications-count" then .ok (.object [Json.member "count" zero])
  else .ok (page ps)

end FeedTraffic.Mock
