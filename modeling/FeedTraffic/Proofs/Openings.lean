import FeedTraffic.Proofs.Cursors
import FeedTraffic.Proofs.RecipeTable

/-!
# How requests open

A request of a recipe opens with what it is about and with who asks.  Behind that come its limit,
if its entry has one, and a cursor, if one is drawn.  So what is true of every opening, and stays
true with a limit and with a cursor, is true of all that recipes ask for; only the malformed
requests are put together in another way.
-/

namespace FeedTraffic.User

open FeedTraffic.Feed FeedTraffic.Random

/-- The parameters with which a request to an endpoint opens.  What the request is about has a
property `p` under the name of its parameter. -/
inductive Opening (p : String → String → Prop) (who : String) :
    Endpoint → List (String × String) → Prop where
  | users : Opening p who .users []
  | asked {e : Endpoint} (plain : e ≠ .postDetails) : Opening p who e [(requesterKey, who)]
  | about {e : Endpoint} (plain : e ≠ .postDetails) {key : String} (known : key ∈ ["user", "post"])
      {subject : String} (holds : p key subject) :
      Opening p who e [(key, subject), (requesterKey, who)]
  | graph {e : Endpoint} (plain : e ≠ .postDetails) {user : String} (holds : p "userPubkey" user) :
      Opening p who e [(requesterKey, who), ("userPubkey", user)]
  | details {id : String} (holds : p "id" id) :
      Opening p who .postDetails [("id", id), (requesterKey, who)]

/-- Whatever a recipe can put into a request has a property `p` under the name of its
parameter. -/
structure Supplies (p : String → String → Prop) (ctx : Context) (session : Session) : Prop where
  users : Yields ctx.samples.randomPubkey fun user => p "user" user ∧ p "userPubkey" user
  posts : Yields ctx.samples.randomPostId fun post => p "post" post ∧ p "id" post
  remembered : Yields (session.pickPost ctx.samples.fallbackPostId) (p "id")
  requester : p "user" ctx.requester

theorem randomPubkey_yields {s : Samples} (filled : s.pubkeys ≠ []) :
    Yields s.randomPubkey (· ∈ s.pubkeys) := by
  refine Yields.bind (pick?_mem filled) ?_
  rintro _ ⟨key, member, rfl⟩
  exact Yields.pure member

theorem randomPostId_yields {s : Samples} (filled : s.postIds ≠ []) :
    Yields s.randomPostId (· ∈ s.postIds) := by
  refine Yields.bind (pick?_mem filled) ?_
  rintro _ ⟨id, member, rfl⟩
  exact Yields.pure member

theorem Supplies.anything (ctx : Context) (session : Session) :
    Supplies (fun _ _ => True) ctx session where
  users := (Yields.trivial _).mono fun _ _ => ⟨True.intro, True.intro⟩
  posts := (Yields.trivial _).mono fun _ _ => ⟨True.intro, True.intro⟩
  remembered := Yields.trivial _
  requester := True.intro

/-! ## How requests are put together -/

/-- What an entry's limits, if it has any, make of a request. -/
def Limited : Option Limits → Request → Request → Prop
  | none, r, r' => r' = r
  | some l, r, r' => ∃ n, l.Allows n ∧ r' = r.limit n

/-- What an entry's paging makes of a request. -/
def Paged (now : Nat) : Paging → Request → Request → Prop
  | .none, r, r' => r' = r
  | .back, r, r' => r' = r ∨ ∃ value, r' = r.param "before" value
  | .full, r, r' =>
    r' = r ∨ (∃ value, r' = r.param "before" value) ∨ ∃ value, r' = r.param "after" value
  | .fixed offset, r, r' => r' = r.param "before" (toString (now - offset))

/-- The parameters with which a request of an entry opens: what the entry names, and who asks. -/
structure Opens (p : String → String → Prop) (who : String) (entry : Entry)
    (ps : List (String × String)) : Prop where
  opening : Opening p who entry.endpoint ps
  subjects : (ps.map Prod.fst).filter (· ≠ requesterKey) = entry.subjects

/-- A request of an entry: an opening, then a limit, then a cursor. -/
def Built (p : String → String → Prop) (ctx : Context) (entry : Entry) (r : Request) : Prop :=
  ∃ ps limited, Opens p ctx.requester entry ps ∧
    Limited entry.limits ⟨entry.endpoint, ps, entry.expect⟩ limited ∧
    Paged ctx.now entry.paging limited r

section Build

variable {p : String → String → Prop} {ctx : Context} {entry : Entry}

namespace Opens

variable {who : String}

theorem asked (plain : entry.endpoint ≠ .postDetails) (alone : entry.subjects = []) :
    Opens p who entry [(requesterKey, who)] :=
  ⟨.asked plain, alone.symm⟩

theorem about (plain : entry.endpoint ≠ .postDetails) {key : String}
    (known : key ∈ ["user", "post"]) (alone : entry.subjects = [key]) {subject : String}
    (holds : p key subject) : Opens p who entry [(key, subject), (requesterKey, who)] := by
  refine ⟨.about plain known holds, ?_⟩
  have other : key ≠ requesterKey := by
    rintro rfl
    revert known
    decide
  simp [alone, other]

variable {ps : List (String × String)} (opens : Opens p ctx.requester entry ps) {r : Request}
  (limited : Limited entry.limits ⟨entry.endpoint, ps, entry.expect⟩ r)

include opens limited

theorem alone (mode : entry.paging = .none) : Built p ctx entry r := by
  refine ⟨ps, r, opens, limited, ?_⟩
  rw [mode]
  rfl

theorem paginate (mode : entry.paging = .full) :
    Yields (r.paginate ctx.now) (Built p ctx entry) := by
  refine (r.paginate_yields ctx.now).mono fun r' drawn => ⟨ps, r, opens, limited, ?_⟩
  rw [mode]
  rcases drawn with rfl | ⟨back, -, -, rfl⟩ | ⟨back, -, -, rfl⟩
  · exact Or.inl rfl
  · exact Or.inr (Or.inl ⟨_, rfl⟩)
  · exact Or.inr (Or.inr ⟨_, rfl⟩)

theorem paginateBefore (mode : entry.paging = .back) (chance : Chance) :
    Yields (r.paginateBefore ctx.now chance) (Built p ctx entry) := by
  refine (r.paginateBefore_yields ctx.now chance).mono fun r' drawn => ⟨ps, r, opens, limited, ?_⟩
  rw [mode]
  rcases drawn with rfl | ⟨back, -, -, rfl⟩
  · exact Or.inl rfl
  · exact Or.inr ⟨_, rfl⟩

end Opens

/-- A limit that is drawn between two bounds. -/
theorem between_limited {lo hi : Nat} (ordered : lo ≤ hi) (r : Request) :
    Yields (between lo hi >>= fun n => pure (r.limit n)) (Limited (some (.between lo hi)) r) :=
  Yields.bind (between_bounds ordered) fun n drawn => Yields.pure ⟨n, drawn, rfl⟩

theorem followGraph_built {e : Endpoint} (plain : e ≠ .postDetails)
    (users : Yields ctx.samples.randomPubkey fun user => p "user" user ∧ p "userPubkey" user) :
    Yields (Recipe.followGraph e ctx)
      (Built p ctx
        { endpoint := e, subjects := ["userPubkey"], limits := some (.between 5 50) }) := by
  refine Yields.bind users fun user holds => ?_
  refine (between_limited (by decide) _).mono fun r limited => ?_
  exact Opens.alone ⟨.graph plain holds.2, rfl⟩ limited rfl

/-- Each request of a well-formed recipe is put together as its entry says. -/
theorem requests_built {session : Session} {recipe : Recipe} (supplied : Supplies p ctx session)
    (wellFormed : recipe ≠ .errorConditions) :
    Yields (recipe.requests ctx session) (List.Forall₂ (Built p ctx) recipe.entries) := by
  have single {entry : Entry} {d : Draw Request} (built : Yields d (Built p ctx entry)) :
      Yields (d >>= fun r => pure [r]) (List.Forall₂ (Built p ctx) [entry]) :=
    Yields.bind built fun r holds => Yields.pure (.cons holds .nil)
  have one {entry : Entry} {r : Request} (built : Built p ctx entry r) :
      Yields (pure [r]) (List.Forall₂ (Built p ctx) [entry]) := single (Yields.pure built)
  cases recipe with
  | errorConditions => exact absurd rfl wellFormed
  | contentsFollowing =>
    exact Yields.bind (between_limited (by decide) _) fun r limited =>
      single ((Opens.asked (by decide) rfl).paginate limited rfl)
  | postsWatching =>
    exact Yields.bind (between_limited (by decide) _) fun r limited =>
      single ((Opens.asked (by decide) rfl).paginate limited rfl)
  | notifications =>
    exact Yields.bind (between_limited (by decide) _) fun r limited =>
      single ((Opens.asked (by decide) rfl).paginate limited rfl)
  | followedUsers =>
    exact Yields.bind (between_limited (by decide) _) fun r limited =>
      single ((Opens.asked (by decide) rfl).paginateBefore limited rfl _)
  | users =>
    have opens : Opens p ctx.requester
        { endpoint := .users, limits := some (.between 10 100), paging := .back } [] :=
      ⟨.users, rfl⟩
    refine Yields.bind (between_bounds (by decide)) fun n drawn => ?_
    exact single (opens.paginateBefore ⟨n, drawn, rfl⟩ rfl _)
  | mentions =>
    refine Yields.bind supplied.users fun user known => ?_
    exact Yields.bind (between_limited (by decide) _) fun r limited =>
      single ((Opens.about (by decide) (by simp) rfl known.1).paginateBefore limited rfl _)
  | posts =>
    refine Yields.bind supplied.users fun user known => ?_
    exact Yields.bind (between_limited (by decide) _) fun r limited =>
      single ((Opens.about (by decide) (by simp) rfl known.1).paginate limited rfl)
  | repliesByPost =>
    refine Yields.bind supplied.posts fun post known => ?_
    exact Yields.bind (between_limited (by decide) _) fun r limited =>
      single ((Opens.about (by decide) (by simp) rfl known.1).paginateBefore limited rfl _)
  | repliesByUser =>
    refine Yields.bind supplied.users fun user known => ?_
    exact Yields.bind (between_limited (by decide) _) fun r limited =>
      single ((Opens.about (by decide) (by simp) rfl known.1).paginateBefore limited rfl _)
  | browseUserDiscovery =>
    have opens : Opens p ctx.requester
        { endpoint := .users, limits := some (.oneOf [20, 50]) } [] := ⟨.users, rfl⟩
    have sizes : ∀ n ∈ [20, 50], n ∈ [20, 50] := fun _ listed => listed
    have otherwise : 20 ∈ [20, 50] := by decide
    refine Yields.bind (pick?_getD sizes otherwise) fun size drawn => ?_
    exact one (opens.alone ⟨_, drawn, rfl⟩ rfl)
  | browseFollowingFeed =>
    have sizes : ∀ n ∈ [10, 20, 30], n ∈ [10, 20, 30] := fun _ listed => listed
    have otherwise : 20 ∈ [10, 20, 30] := by decide
    refine Yields.bind (pick?_getD sizes otherwise) fun size drawn => ?_
    exact one ((Opens.asked (by decide) rfl).alone ⟨_, drawn, rfl⟩ rfl)
  | rapidPagination =>
    have page (offset : Nat) : Built p ctx
        { endpoint := .postsWatching, limits := some (.oneOf [50]), paging := .fixed offset }
        (Recipe.rapidPage ctx offset) :=
      ⟨_, _, Opens.asked nofun rfl, ⟨50, List.mem_singleton_self 50, rfl⟩, rfl⟩
    exact Yields.pure (.cons (page 3600) (.cons (page 7200) (.cons (page 10800) .nil)))
  | rapidFollowing =>
    exact one ((Opens.asked (by decide) rfl).alone ⟨100, List.mem_singleton_self 100, rfl⟩ rfl)
  | checkMentions =>
    exact one ((Opens.about (by decide) (by simp) rfl supplied.requester).alone
      ⟨20, List.mem_singleton_self 20, rfl⟩ rfl)
  | checkOwnPosts =>
    exact one ((Opens.about (by decide) (by simp) rfl supplied.requester).alone
      ⟨20, List.mem_singleton_self 20, rfl⟩ rfl)
  | viewPostDetails =>
    exact Yields.bind supplied.remembered fun post known =>
      one (Opens.alone ⟨.details known, rfl⟩ rfl rfl)
  | postDetails =>
    exact Yields.bind supplied.posts fun post known =>
      one (Opens.alone ⟨.details known.2, rfl⟩ rfl rfl)
  | userDetails =>
    exact Yields.bind supplied.users fun user known =>
      one ((Opens.about (by decide) (by simp) rfl known.1).alone rfl rfl)
  | notificationsCount => exact one ((Opens.asked (by decide) rfl).alone rfl rfl)
  | usersFollowing => exact single (followGraph_built (by decide) supplied.users)
  | usersFollowers => exact single (followGraph_built (by decide) supplied.users)

end Build

/-! ## What all requests have in common -/

section Keeps

variable {q : Request → Prop} {r r' : Request}

theorem Limited.keeps (limited : ∀ r n, 1 ≤ n → n ≤ 100 → q r → q (r.limit n)) {l? : Option Limits}
    (proper : ∀ l, l? = some l → l.areProper = true) (step : Limited l? r r') (holds : q r) :
    q r' := by
  cases l? with
  | none =>
    rw [show r' = r from step]
    exact holds
  | some l =>
    obtain ⟨n, allowed, rfl⟩ := step
    have within := allowed.bounds (proper l rfl)
    exact limited r n within.1 within.2 holds

theorem Paged.keeps (free : Request.IgnoresCursors q) {now : Nat} {mode : Paging}
    (step : Paged now mode r r') (holds : q r) : q r' := by
  have before (value : String) : q (r.param "before" value) := free r _ _ (Or.inl rfl) holds
  have after (value : String) : q (r.param "after" value) := free r _ _ (Or.inr rfl) holds
  cases mode with
  | none =>
    rw [show r' = r from step]
    exact holds
  | back =>
    rcases step with rfl | ⟨value, rfl⟩
    · exact holds
    · exact before value
  | full =>
    rcases step with rfl | ⟨value, rfl⟩ | ⟨value, rfl⟩
    · exact holds
    · exact before value
    · exact after value
  | fixed offset =>
    rw [show r' = _ from step]
    exact before _

theorem exists_of_forall₂ {α β : Type} {rel : α → β → Prop} {as : List α} {bs : List β}
    (related : List.Forall₂ rel as bs) {b : β} (member : b ∈ bs) : ∃ a ∈ as, rel a b := by
  induction related with
  | nil => cases member
  | cons holds _ ih =>
    rcases List.mem_cons.mp member with rfl | later
    · exact ⟨_, List.mem_cons_self, holds⟩
    · obtain ⟨a, listed, found⟩ := ih later
      exact ⟨a, List.mem_cons_of_mem _ listed, found⟩

/-- What every opening of a recipe has, and keeps with a limit within range and with a cursor, all
of its requests have; rapid pagination gives three of them, any other recipe one. -/
theorem requests_keep (limited : ∀ r n, 1 ≤ n → n ≤ 100 → q r → q (r.limit n)) {ctx : Context}
    {p : String → String → Prop} {session : Session} {recipe : Recipe}
    (supplied : Supplies p ctx session) (free : Request.IgnoresCursors q)
    (opens : ∀ ps, Opening p ctx.requester recipe.endpoint ps → q ⟨recipe.endpoint, ps, .ok⟩)
    (wellFormed : recipe ≠ .errorConditions) :
    Yields (recipe.requests ctx session) fun rs =>
      rs.length = (if recipe = .rapidPagination then 3 else 1) ∧ ∀ r ∈ rs, q r := by
  refine (requests_built supplied wellFormed).mono fun rs built => ⟨?_, ?_⟩
  · exact built.length_eq.symm.trans (length_entries recipe wellFormed)
  · intro r member
    obtain ⟨entry, listed, ps, r', starts, limits, pages⟩ := exists_of_forall₂ built member
    obtain ⟨same, answered, proper⟩ := entries_wellFormed wellFormed listed
    rw [same, answered] at limits
    refine Paged.keeps free pages (Limited.keeps limited proper limits (opens ps ?_))
    rw [← same]
    exact starts.opening

end Keeps

end FeedTraffic.User
