/-!
# Read endpoints of the feed

The path of an endpoint is also the name under which its requests are counted, so requests with
different parameters fall into one row.
-/

namespace FeedTraffic.Feed

inductive Endpoint where
  | posts
  | postsWatching
  | contentsFollowing
  | replies
  | mentions
  | users
  | postDetails
  | userDetails
  | notifications
  | notificationsCount
  | followedUsers
  | usersFollowing
  | usersFollowers
  | health
  deriving DecidableEq, Repr

namespace Endpoint

def all : List Endpoint :=
  [posts, postsWatching, contentsFollowing, replies, mentions, users, postDetails, userDetails,
   notifications, notificationsCount, followedUsers, usersFollowing, usersFollowers, health]

def path : Endpoint → String
  | posts => "/get-posts"
  | postsWatching => "/get-posts-watching"
  | contentsFollowing => "/get-contents-following"
  | replies => "/get-replies"
  | mentions => "/get-mentions"
  | users => "/get-users"
  | postDetails => "/get-post-details"
  | userDetails => "/get-user-details"
  | notifications => "/get-notifications"
  | notificationsCount => "/get-notifications-count"
  | followedUsers => "/get-followed-users"
  | usersFollowing => "/get-users-following"
  | usersFollowers => "/get-users-followers"
  | health => "/health"

/-- The name of an endpoint in dumps. -/
def label : Endpoint → String
  | posts => "Posts"
  | postsWatching => "PostsWatching"
  | contentsFollowing => "ContentsFollowing"
  | replies => "Replies"
  | mentions => "Mentions"
  | users => "Users"
  | postDetails => "PostDetails"
  | userDetails => "UserDetails"
  | notifications => "Notifications"
  | notificationsCount => "NotificationsCount"
  | followedUsers => "FollowedUsers"
  | usersFollowing => "UsersFollowing"
  | usersFollowers => "UsersFollowers"
  | health => "Health"

def ofLabel? (s : String) : Option Endpoint := all.find? (·.label == s)

theorem mem_all (e : Endpoint) : e ∈ all := by cases e <;> decide

end Endpoint

end FeedTraffic.Feed
