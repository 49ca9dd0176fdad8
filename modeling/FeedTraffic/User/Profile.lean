import FeedTraffic.Text.Literal
import FeedTraffic.Time.Duration
import FeedTraffic.User.Recipe

/-!
# Profiles

A profile is a kind of virtual user: a share of all users, a pause between tasks and a list of
weighted tasks.  There are five.  Tasks that browse the following feed come first and only when
that feed is switched on; the social profile has none.
-/

namespace FeedTraffic.User

open FeedTraffic.Time

/-- A task of a profile; its name and endpoint are those of its recipe. -/
structure Task where
  recipe : Recipe
  /-- Relative frequency within the profile. -/
  weight : Nat
  deriving DecidableEq, Repr

structure Profile where
  name : String
  /-- Relative share of virtual users. -/
  weight : Nat
  wait : WaitTime
  tasks : List Task
  deriving DecidableEq, Repr

/-- Settings of a profile that replace the built-in ones. -/
structure Overrides where
  enabled : Bool := true
  weight : Option Nat := none
  wait : Option WaitTime := none
  deriving DecidableEq, Repr

def maxWeight : Nat := 2 ^ 64 - 1

/-- A sum of weights, unless it runs over. -/
def sumWeights (ws : List Nat) : Option Nat :=
  ws.foldlM (fun total w => if total + w ≤ maxWeight then some (total + w) else none) 0

namespace Profile

def apiTasks (followingFeed : Bool) : List Task :=
  (if followingFeed then [⟨.contentsFollowing, 3⟩] else []) ++
    [⟨.postsWatching, 5⟩, ⟨.mentions, 1⟩, ⟨.users, 2⟩, ⟨.posts, 6⟩, ⟨.repliesByPost, 4⟩,
     ⟨.repliesByUser, 4⟩, ⟨.postDetails, 3⟩, ⟨.errorConditions, 1⟩]

/-- Uses every read endpoint with random limits and cursors. -/
def api (followingFeed : Bool) : Profile :=
  ⟨"ApiUser", 1, .ofMillis 1000 3000, apiTasks followingFeed⟩

/-- Pages quickly through feeds with large limits. -/
def heavy (followingFeed : Bool) : Profile :=
  ⟨"HeavyLoadUser", 1, .ofMillis 500 1500,
    (if followingFeed then [⟨.rapidFollowing, 5⟩] else []) ++ [⟨.rapidPagination, 3⟩]⟩

/-- Browses slowly and opens posts it came across. -/
def realistic (followingFeed : Bool) : Profile :=
  ⟨"RealisticUser", 3, .ofMillis 2000 8000,
    (if followingFeed then [⟨.browseFollowingFeed, 10⟩] else []) ++
      [⟨.checkMentions, 2⟩, ⟨.viewPostDetails, 3⟩, ⟨.browseUserDiscovery, 2⟩,
       ⟨.checkOwnPosts, 1⟩]⟩

/-- The tasks of `api` with twice its share of users. -/
def website (followingFeed : Bool) : Profile :=
  ⟨"WebsiteUser", 2, .ofMillis 1000 3000, apiTasks followingFeed⟩

/-- Reads notifications and the follow graph. -/
def social (_followingFeed : Bool) : Profile :=
  ⟨"SocialUser", 1, .ofMillis 1000 4000,
    [⟨.notifications, 3⟩, ⟨.notificationsCount, 2⟩, ⟨.followedUsers, 2⟩, ⟨.usersFollowing, 1⟩,
     ⟨.usersFollowers, 1⟩, ⟨.userDetails, 2⟩]⟩

/-- Puts in a weight and a pause where they are given. -/
def configure (p : Profile) (o : Overrides) : Profile :=
  { p with weight := o.weight.getD p.weight, wait := o.wait.getD p.wait }

def totalTaskWeight (p : Profile) : Nat := (p.tasks.map (·.weight)).sum

def waitDump (w : WaitTime) : String :=
  "WaitTime \x7b min: " ++ w.min.text ++ ", max: " ++ w.max.text ++ " \x7d"

def taskDump (t : Task) : String :=
  "Task \x7b name: " ++ Text.Literal.quoted t.recipe.name ++ ", weight: " ++ toString t.weight ++
    ", endpoint: " ++ t.recipe.endpoint.label ++ ", .. \x7d"

def dump (p : Profile) : String :=
  "Profile \x7b name: " ++ Text.Literal.quoted p.name ++ ", weight: " ++ toString p.weight ++
    ", wait_time: " ++ waitDump p.wait ++ ", tasks: [" ++
    ", ".intercalate (p.tasks.map taskDump) ++ "] \x7d"

end Profile

structure Roster where
  api : Overrides := {}
  heavy : Overrides := {}
  realistic : Overrides := {}
  website : Overrides := {}
  social : Overrides := { enabled := false }
  deriving DecidableEq, Repr

namespace Roster

/-- The profiles with their settings, in their fixed order. -/
def candidates (r : Roster) (followingFeed : Bool) : List (Overrides × Profile) :=
  [(r.api, .api followingFeed), (r.heavy, .heavy followingFeed),
   (r.realistic, .realistic followingFeed), (r.website, .website followingFeed),
   (r.social, .social followingFeed)]

/-- The profiles that take part: those switched on that have a weight and a task. -/
def selected (r : Roster) (followingFeed : Bool) : List Profile :=
  (((r.candidates followingFeed).filter (·.1.enabled)).map fun (o, p) => p.configure o).filter
    fun p => 0 < p.weight && !p.tasks.isEmpty

end Roster

inductive NoProfiles where
  | mk
  deriving DecidableEq, Repr

def NoProfiles.message (_ : NoProfiles) : String := "no profiles are enabled"

/-- The profiles that take part, at least one. -/
def Roster.enabled (r : Roster) (followingFeed : Bool) : Except NoProfiles (List Profile) :=
  match r.selected followingFeed with
  | [] => .error .mk
  | ps => .ok ps

end FeedTraffic.User
