import FeedTraffic.Feed.Request
import FeedTraffic.User.Session

/-!
# Recipes

A recipe says which requests a virtual user sends for one task.  It depends on the samples, the
requester, the clock, the remembered posts and the random words, and on nothing else.  Most
recipes give one request; rapid pagination gives three.
-/

namespace FeedTraffic.User

open FeedTraffic.Feed FeedTraffic.Random

/-- What a recipe knows besides the random words. -/
structure Context where
  samples : Samples
  requester : String
  /-- The clock in seconds. -/
  now : Nat

inductive Recipe where
  | contentsFollowing
  | postsWatching
  | mentions
  | users
  | posts
  | repliesByPost
  | repliesByUser
  | postDetails
  | errorConditions
  | rapidPagination
  | rapidFollowing
  | browseFollowingFeed
  | checkMentions
  | viewPostDetails
  | browseUserDiscovery
  | checkOwnPosts
  | notifications
  | notificationsCount
  | followedUsers
  | usersFollowing
  | usersFollowers
  | userDetails
  deriving DecidableEq, Repr

namespace Recipe

def all : List Recipe :=
  [contentsFollowing, postsWatching, mentions, users, posts, repliesByPost, repliesByUser,
   postDetails, errorConditions, rapidPagination, rapidFollowing, browseFollowingFeed,
   checkMentions, viewPostDetails, browseUserDiscovery, checkOwnPosts, notifications,
   notificationsCount, followedUsers, usersFollowing, usersFollowers, userDetails]

theorem mem_all (r : Recipe) : r ∈ all := by cases r <;> decide

def name : Recipe → String
  | contentsFollowing => "contents_following"
  | postsWatching => "posts_watching"
  | mentions => "mentions"
  | users => "users"
  | posts => "posts"
  | repliesByPost => "replies_by_post"
  | repliesByUser => "replies_by_user"
  | postDetails => "post_details"
  | errorConditions => "error_conditions"
  | rapidPagination => "rapid_pagination"
  | rapidFollowing => "rapid_following"
  | browseFollowingFeed => "browse_following_feed"
  | checkMentions => "check_mentions"
  | viewPostDetails => "view_post_details"
  | browseUserDiscovery => "browse_user_discovery"
  | checkOwnPosts => "check_own_posts"
  | notifications => "notifications"
  | notificationsCount => "notifications_count"
  | followedUsers => "followed_users"
  | usersFollowing => "users_following"
  | usersFollowers => "users_followers"
  | userDetails => "user_details"

def ofName? (s : String) : Option Recipe := all.find? (·.name == s)

/-- The endpoint under which the task of a recipe is listed. -/
def endpoint : Recipe → Endpoint
  | contentsFollowing => .contentsFollowing
  | postsWatching => .postsWatching
  | mentions => .mentions
  | users => .users
  | posts => .posts
  | repliesByPost => .replies
  | repliesByUser => .replies
  | postDetails => .postDetails
  | errorConditions => .posts
  | rapidPagination => .postsWatching
  | rapidFollowing => .contentsFollowing
  | browseFollowingFeed => .contentsFollowing
  | checkMentions => .mentions
  | viewPostDetails => .postDetails
  | browseUserDiscovery => .users
  | checkOwnPosts => .posts
  | notifications => .notifications
  | notificationsCount => .notificationsCount
  | followedUsers => .followedUsers
  | usersFollowing => .usersFollowing
  | usersFollowers => .usersFollowers
  | userDetails => .userDetails

/-- The number of malformed requests there are. -/
def errorConditionCount : Nat := 5

/-- A request that is malformed on purpose: two without a requester, two with a limit out of
range, one with an identifier that is none. -/
def errorCondition (index : Nat) (ctx : Context) : Request :=
  let user := ctx.samples.firstPubkey
  let request := match index % errorConditionCount with
    | 0 => Request.mk .posts [("user", user)] .ok
    | 1 => .mk .mentions [("user", user)] .ok
    | 2 => (Request.mk .posts [("user", user), (requesterKey, ctx.requester)] .ok).limit 0
    | 3 => (Request.mk .posts [("user", user), (requesterKey, ctx.requester)] .ok).limit 150
    | _ => .mk .postDetails [("id", "invalid_post_id"), (requesterKey, ctx.requester)] .ok
  request.expectClientError

/-- A request of the requester, with a limit drawn between two bounds. -/
def feedRequest (e : Endpoint) (ctx : Context) (lo hi : Nat) : Draw Request := do
  let n ← between lo hi
  pure ((Request.mk e [(requesterKey, ctx.requester)] .ok).limit n)

/-- A request about a user or a post, with the requester and a limit drawn between two bounds. -/
def aboutRequest (e : Endpoint) (key subject : String) (ctx : Context) (lo hi : Nat) :
    Draw Request := do
  let n ← between lo hi
  pure ((Request.mk e [(key, subject), (requesterKey, ctx.requester)] .ok).limit n)

/-- A request about the follow graph of a random user. -/
def followGraph (e : Endpoint) (ctx : Context) : Draw Request := do
  let user ← ctx.samples.randomPubkey
  let n ← between 5 50
  pure ((Request.mk e [(requesterKey, ctx.requester), ("userPubkey", user)] .ok).limit n)

/-- How far back the pages of rapid pagination start, in seconds. -/
def pageOffsets : List Nat := [3600, 7200, 10800]

def rapidPage (ctx : Context) (offset : Nat) : Request :=
  ((Request.mk .postsWatching [(requesterKey, ctx.requester)] .ok).limit 50).param "before"
    (toString (ctx.now - offset))

def requests (ctx : Context) (session : Session) : Recipe → Draw (List Request)
  | contentsFollowing => do
    let r ← feedRequest .contentsFollowing ctx 5 50
    pure [← r.paginate ctx.now]
  | postsWatching => do
    let r ← feedRequest .postsWatching ctx 5 50
    pure [← r.paginate ctx.now]
  | mentions => do
    let user ← ctx.samples.randomPubkey
    let r ← aboutRequest .mentions "user" user ctx 5 30
    pure [← r.paginateBefore ctx.now .fifth]
  | users => do
    let n ← between 10 100
    pure [← ((Request.mk .users [] .ok).limit n).paginateBefore ctx.now .fifth]
  | posts => do
    let user ← ctx.samples.randomPubkey
    let r ← aboutRequest .posts "user" user ctx 5 50
    pure [← r.paginate ctx.now]
  | repliesByPost => do
    let post ← ctx.samples.randomPostId
    let r ← aboutRequest .replies "post" post ctx 5 30
    pure [← r.paginateBefore ctx.now .fifth]
  | repliesByUser => do
    let user ← ctx.samples.randomPubkey
    let r ← aboutRequest .replies "user" user ctx 5 30
    pure [← r.paginateBefore ctx.now .fifth]
  | postDetails => do
    let post ← ctx.samples.randomPostId
    pure [.mk .postDetails [("id", post), (requesterKey, ctx.requester)] .ok]
  | errorConditions => do
    let index ← between 0 (errorConditionCount - 1)
    pure [errorCondition index ctx]
  | rapidPagination => pure (pageOffsets.map (rapidPage ctx))
  | rapidFollowing =>
    pure [(Request.mk .contentsFollowing [(requesterKey, ctx.requester)] .ok).limit 100]
  | browseFollowingFeed => do
    let size ← pick? [10, 20, 30]
    pure [(Request.mk .contentsFollowing [(requesterKey, ctx.requester)] .ok).limit
      (size.getD 20)]
  | checkMentions =>
    pure [(Request.mk .mentions [("user", ctx.requester), (requesterKey, ctx.requester)] .ok).limit
      20]
  | viewPostDetails => do
    let post ← session.pickPost ctx.samples.fallbackPostId
    pure [.mk .postDetails [("id", post), (requesterKey, ctx.requester)] .ok]
  | browseUserDiscovery => do
    let size ← pick? [20, 50]
    pure [(Request.mk .users [] .ok).limit (size.getD 20)]
  | checkOwnPosts =>
    pure [(Request.mk .posts [("user", ctx.requester), (requesterKey, ctx.requester)] .ok).limit 20]
  | notifications => do
    let r ← feedRequest .notifications ctx 5 50
    pure [← r.paginate ctx.now]
  | notificationsCount =>
    pure [.mk .notificationsCount [(requesterKey, ctx.requester)] .ok]
  | followedUsers => do
    let r ← feedRequest .followedUsers ctx 10 100
    pure [← r.paginateBefore ctx.now .fifth]
  | usersFollowing => do pure [← followGraph .usersFollowing ctx]
  | usersFollowers => do pure [← followGraph .usersFollowers ctx]
  | userDetails => do
    let user ← ctx.samples.randomPubkey
    pure [.mk .userDetails [("user", user), (requesterKey, ctx.requester)] .ok]

end Recipe

end FeedTraffic.User
