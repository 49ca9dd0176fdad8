import FeedTraffic.Feed.Page
import FeedTraffic.Feed.Samples

/-!
# Sessions

A virtual user keeps one requester for its lifetime and remembers the posts it came across: of
each page the first three, and of all posts the last fifty.
-/

namespace FeedTraffic.User

open FeedTraffic.Feed FeedTraffic.Random

structure Session where
  requester : String
  /-- Remembered posts, the oldest first. -/
  posts : List String := []
  deriving DecidableEq, Repr

namespace Session

/-- Posts looked at on one page. -/
def postsPerPage : Nat := 3

/-- Posts remembered at most. -/
def maxPosts : Nat := 50

def start (samples : Samples) : Draw Session := do
  let requester ← samples.randomPubkey
  pure { requester }

/-- The posts that a body adds to a session. -/
def discoveries (body : String) : List String :=
  match Page.ofBody? body with
  | none => []
  | some page => (page.posts.take postsPerPage).filterMap id

/-- Posts behind those remembered; the oldest go first when there are too many. -/
def extend (s : Session) (found : List String) : Session :=
  let posts := s.posts ++ found
  { s with posts := posts.drop (posts.length - maxPosts) }

/-- Remembers the posts of a body, and counts them.  A body that is no page changes nothing. -/
def remember (s : Session) (body : String) : Nat × Session :=
  match Page.ofBody? body with
  | none => (0, s)
  | some _ => ((discoveries body).length, s.extend (discoveries body))

/-- A remembered post, or the fallback if there is none. -/
def pickPost (s : Session) (fallback : String) : Draw String := do
  let picked ← pick? s.posts
  pure (picked.getD fallback)

end Session

end FeedTraffic.User
