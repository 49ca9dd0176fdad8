import FeedTraffic.Json.Reader

/-!
# Feed pages

A page is an object with a member `posts`, a list of posts, each an object with a member `id`, a
string or null.  Both members may be missing and others are passed over, but neither may come
twice.  A page or a post may also be an array of its members in order; a post needs its
identifier there.  One fault anywhere and the text is no page at all.
-/

namespace FeedTraffic.Feed

/-- The identifiers of the posts of a page. -/
structure Page where
  posts : List (Option String)
  deriving DecidableEq, Repr

namespace Page

/-- An identifier: a string, or none for null. -/
def identifier? : Json → Option (Option String)
  | .null => some none
  | v => v.string?.map some

def valuesOf (key : String) (members : List (String × Json)) : List Json :=
  members.filterMap fun (k, v) => if k = key then some v else none

def post? : Json → Option (Option String)
  | .array [v] => identifier? v
  | v => do
    match valuesOf "id" (← v.members?) with
    | [] => pure none
    | [id] => identifier? id
    | _ => none

def posts? : Json → Option (List (Option String))
  | .array items => items.mapM post?
  | _ => none

def ofJson? : Json → Option Page
  | .array [] => some ⟨[]⟩
  | .array [v] => (posts? v).map Page.mk
  | v => do
    match valuesOf "posts" (← v.members?) with
    | [] => pure ⟨[]⟩
    | [posts] => (posts? posts).map Page.mk
    | _ => none

def ofBody? (body : String) : Option Page := do
  let value ← Json.ofText? body
  ofJson? value

end Page

end FeedTraffic.Feed
