import FeedTraffic.User.Recipe

/-!
# A table of the recipes

For every recipe the table says where its requests go, which parameters they have, how large their
limit may be, which cursors they may have and what they expect.  The requester is left out: who asks
goes without saying.  The malformed requests are five alternatives, and the pages of rapid
pagination are three requests in order; every other recipe is a single request.
-/

namespace FeedTraffic.User

open FeedTraffic.Feed

inductive Limits where
  | between (lo hi : Nat)
  | oneOf (ns : List Nat)
  deriving DecidableEq, Repr

/-- How the requests of an entry go back in time. -/
inductive Paging where
  | none
  /-- Perhaps with a `before` cursor. -/
  | back
  /-- Perhaps with a `before` cursor or with an `after` cursor. -/
  | full
  /-- With a `before` cursor so many seconds back. -/
  | fixed (offset : Nat)
  deriving DecidableEq, Repr

structure Entry where
  endpoint : Endpoint
  /-- The parameters beside the requester, the limit and the cursors. -/
  subjects : List String := []
  limits : Option Limits := none
  paging : Paging := .none
  expect : Expectation := .ok
  deriving DecidableEq, Repr

def Recipe.entries : Recipe → List Entry
  | postsWatching =>
    [{ endpoint := .postsWatching, limits := some (.between 5 50), paging := .full }]
  | mentions =>
    [{ endpoint := .mentions, subjects := ["user"], limits := some (.between 5 30),
       paging := .back }]
  | users => [{ endpoint := .users, limits := some (.between 10 100), paging := .back }]
  | posts =>
    [{ endpoint := .posts, subjects := ["user"], limits := some (.between 5 50), paging := .full }]
  | repliesByPost =>
    [{ endpoint := .replies, subjects := ["post"], limits := some (.between 5 30),
       paging := .back }]
  | repliesByUser =>
    [{ endpoint := .replies, subjects := ["user"], limits := some (.between 5 30),
       paging := .back }]
  | postDetails => [{ endpoint := .postDetails, subjects := ["id"] }]
  | errorConditions =>
    [{ endpoint := .posts, subjects := ["user"], expect := .clientError },
     { endpoint := .mentions, subjects := ["user"], expect := .clientError },
     { endpoint := .posts, subjects := ["user"], limits := some (.oneOf [0]),
       expect := .clientError },
     { endpoint := .posts, subjects := ["user"], limits := some (.oneOf [150]),
       expect := .clientError },
     { endpoint := .postDetails, subjects := ["id"], expect := .clientError }]
  | contentsFollowing =>
    [{ endpoint := .contentsFollowing, limits := some (.between 5 50), paging := .full }]
  | rapidPagination =>
    [{ endpoint := .postsWatching, limits := some (.oneOf [50]), paging := .fixed 3600 },
     { endpoint := .postsWatching, limits := some (.oneOf [50]), paging := .fixed 7200 },
     { endpoint := .postsWatching, limits := some (.oneOf [50]), paging := .fixed 10800 }]
  | rapidFollowing => [{ endpoint := .contentsFollowing, limits := some (.oneOf [100]) }]
  | checkMentions =>
    [{ endpoint := .mentions, subjects := ["user"], limits := some (.oneOf [20]) }]
  | viewPostDetails => [{ endpoint := .postDetails, subjects := ["id"] }]
  | browseUserDiscovery => [{ endpoint := .users, limits := some (.oneOf [20, 50]) }]
  | checkOwnPosts =>
    [{ endpoint := .posts, subjects := ["user"], limits := some (.oneOf [20]) }]
  | browseFollowingFeed =>
    [{ endpoint := .contentsFollowing, limits := some (.oneOf [10, 20, 30]) }]
  | notifications =>
    [{ endpoint := .notifications, limits := some (.between 5 50), paging := .full }]
  | notificationsCount => [{ endpoint := .notificationsCount }]
  | followedUsers =>
    [{ endpoint := .followedUsers, limits := some (.between 10 100), paging := .back }]
  | usersFollowing =>
    [{ endpoint := .usersFollowing, subjects := ["userPubkey"], limits := some (.between 5 50) }]
  | usersFollowers =>
    [{ endpoint := .usersFollowers, subjects := ["userPubkey"], limits := some (.between 5 50) }]
  | userDetails => [{ endpoint := .userDetails, subjects := ["user"] }]

namespace Limits

def Allows : Limits → Nat → Prop
  | between lo hi, n => lo ≤ n ∧ n ≤ hi
  | oneOf ns, n => n ∈ ns

def areProper : Limits → Bool
  | between lo hi => 1 ≤ lo && hi ≤ 100
  | oneOf ns => ns.all fun n => 1 ≤ n && n ≤ 100

theorem Allows.bounds {l : Limits} {n : Nat} (allowed : l.Allows n) (proper : l.areProper = true) :
    1 ≤ n ∧ n ≤ 100 := by
  cases l with
  | between lo hi =>
    simp only [areProper, Bool.and_eq_true, decide_eq_true_eq] at proper
    exact ⟨Nat.le_trans proper.1 allowed.1, Nat.le_trans allowed.2 proper.2⟩
  | oneOf ns =>
    have within := List.all_eq_true.mp proper n allowed
    simpa only [Bool.and_eq_true, decide_eq_true_eq] using within

end Limits

/-- Entries of well-formed requests are under the endpoint of their recipe, expect an answer and
have limits of the feed. -/
theorem entries_wellFormed {recipe : Recipe} (wellFormed : recipe ≠ .errorConditions)
    {entry : Entry} (listed : entry ∈ recipe.entries) :
    entry.endpoint = recipe.endpoint ∧ entry.expect = .ok ∧
      ∀ l, entry.limits = some l → l.areProper = true := by
  have all : ∀ recipe ∈ Recipe.all, recipe ≠ .errorConditions → ∀ entry ∈ recipe.entries,
      entry.endpoint = recipe.endpoint ∧ entry.expect = .ok ∧
        ∀ l ∈ entry.limits, l.areProper = true := by decide
  exact all recipe recipe.mem_all wellFormed entry listed

theorem length_entries (recipe : Recipe) (wellFormed : recipe ≠ .errorConditions) :
    recipe.entries.length = if recipe = .rapidPagination then 3 else 1 := by
  revert wellFormed
  cases recipe <;> decide

end FeedTraffic.User
