import FeedTraffic.Mock.Rules
import FeedTraffic.Proofs.Decimals
import FeedTraffic.Proofs.Openings
import FeedTraffic.User.Scenario

/-!
# Requests that the mock feed treats as expected

A request that names a requester, has a limit within range and the identifier of a post where one
is needed is answered; cursors and further parameters do not change that.  Every recipe gives such
requests, whatever is drawn, except the one for error conditions: each of its requests breaks a
rule and expects to be refused.
-/

namespace FeedTraffic.Mock

open FeedTraffic.Feed FeedTraffic.Random FeedTraffic.User

/-! ## Parameters -/

namespace Params

theorem get?_append_same (ps : Params) (name value : String) :
    Params.get? (ps ++ [(name, value)]) name = some value := by
  simp [Params.get?]

theorem get?_append_other {ps : Params} {key name : String} (other : key ≠ name) (value : String) :
    Params.get? (ps ++ [(name, value)]) key = Params.get? ps key := by
  simp [Params.get?, List.lookup_cons, beq_eq_false_iff_ne.mpr other]

end Params

theorem isLimit_toString {n : Nat} (pos : 1 ≤ n) (small : n ≤ maxLimit) :
    isLimit (toString n) = true := by
  have word : n ≤ 2 ^ 32 - 1 := Nat.le_trans small (by decide)
  have read : Number.Whole.unsigned? (2 ^ 32 - 1) (toString n).toList = some n :=
    (Number.Whole.unsigned?_eq_some_iff pos).mpr ⟨word, [], 0, Or.inl rfl, by simp⟩
  rw [isLimit, read]
  simp only [pos, small, decide_true, Bool.and_self]

/-! ## Requests that break no rule -/

/-- A request to the feed that breaks no rule but, perhaps, the one for identifiers of posts.  Where
such an identifier is needed it is there and has a property `p`. -/
structure Proper (p : String → Prop) (r : Request) : Prop where
  expects : r.expect = .ok
  on_feed : r.endpoint ≠ .health
  requester : r.endpoint = .users ∨ (Params.get? r.params requesterKey).isSome = true
  limit : ∀ s, Params.get? r.params "limit" = some s → isLimit s = true
  post : r.endpoint = .postDetails → ∃ id, Params.get? r.params "id" = some id ∧ p id

/-- Paths tell endpoints apart. -/
theorem path_injective {d e : Endpoint} (same : d.path = e.path) : d = e := by
  have apart : ∀ d ∈ Endpoint.all, ∀ e ∈ Endpoint.all, d.path = e.path → d = e := by
    decide +kernel
  exact apart d d.mem_all e e.mem_all same

namespace Proper

variable {p : String → Prop} {r : Request}

/-- What is left of the rules when a request names its requester and has a limit in range. -/
theorem respond_eq (h : Proper p r) :
    respond r.endpoint.path r.params =
      if r.endpoint.path = "/get-post-details" then
        let id := (Params.get? r.params "id").getD ""
        if isPostId id then .ok (postDetails id) else .error .postId
      else if r.endpoint.path = "/get-user-details" then .ok (userDetails r.params)
      else if r.endpoint.path = "/get-notifications-count" then
        .ok (.object [Json.member "count" zero])
      else .ok (page r.params) := by
  have named : ¬(r.endpoint.path ≠ "/get-users" ∧
      (Params.get? r.params requesterKey).isNone = true) := by
    rintro ⟨other, missing⟩
    rcases h.requester with users | present
    · exact other (congrArg Endpoint.path users)
    · rw [Option.isNone_iff_eq_none] at missing
      rw [missing] at present
      cases present
  have within : ¬(Params.get? r.params "limit").any (!isLimit ·) = true := by
    cases limit : Params.get? r.params "limit" with
    | none => simp
    | some s => simp [h.limit s limit]
  rw [respond, if_neg named, if_neg within]

/-- Details of a post are answered if, and only if, the identifier is one. -/
theorem respond_details (h : Proper p r) (details : r.endpoint = .postDetails) :
    ∃ id, Params.get? r.params "id" = some id ∧ p id ∧ respond r.endpoint.path r.params =
      if isPostId id then .ok (postDetails id) else .error .postId := by
  obtain ⟨id, found, holds⟩ := h.post details
  refine ⟨id, found, holds, ?_⟩
  have here : r.endpoint.path = "/get-post-details" := congrArg Endpoint.path details
  rw [h.respond_eq, if_pos here, found]
  rfl

/-- Whatever else is asked for is answered. -/
theorem respond_other (h : Proper p r) (other : r.endpoint ≠ .postDetails) :
    ∃ body, respond r.endpoint.path r.params = .ok body := by
  have elsewhere : r.endpoint.path ≠ "/get-post-details" := fun same =>
    other (path_injective same)
  rw [h.respond_eq, if_neg elsewhere]
  split
  · exact ⟨_, rfl⟩
  · split
    · exact ⟨_, rfl⟩
    · exact ⟨_, rfl⟩

theorem respond_ok (h : Proper (isPostId · = true) r) :
    ∃ body, respond r.endpoint.path r.params = .ok body := by
  by_cases details : r.endpoint = .postDetails
  · obtain ⟨id, -, isId, answered⟩ := h.respond_details details
    exact ⟨postDetails id, answered.trans (if_pos isId)⟩
  · exact h.respond_other details

/-- The following feed answers with a page. -/
theorem respond_following (h : Proper p r) (following : r.endpoint = .contentsFollowing) :
    respond r.endpoint.path r.params = .ok (page r.params) := by
  rw [h.respond_eq, following]
  rfl

/-- A parameter that no rule looks at. -/
theorem param (h : Proper p r) {name : String} (value : String) (free : requesterKey ≠ name)
    (no_limit : "limit" ≠ name) (no_id : "id" ≠ name) : Proper p (r.param name value) where
  expects := h.expects
  on_feed := h.on_feed
  requester := by
    simp only [Request.param, Params.get?_append_other free]
    exact h.requester
  limit := by
    simp only [Request.param, Params.get?_append_other no_limit]
    exact h.limit
  post := by
    simp only [Request.param, Params.get?_append_other no_id]
    exact h.post

theorem withLimit (h : Proper p r) {n : Nat} (pos : 1 ≤ n) (small : n ≤ maxLimit) :
    Proper p (r.limit n) where
  expects := h.expects
  on_feed := h.on_feed
  requester := by
    simp only [Request.limit, Request.param,
      Params.get?_append_other (show requesterKey ≠ "limit" by decide)]
    exact h.requester
  limit := by
    intro s found
    rw [Request.limit, Request.param, Params.get?_append_same] at found
    rw [← Option.some.inj found]
    exact isLimit_toString pos small
  post := by
    simp only [Request.limit, Request.param,
      Params.get?_append_other (show "id" ≠ "limit" by decide)]
    exact h.post

theorem ignoresCursors : Request.IgnoresCursors (Proper p) := by
  rintro r name value (rfl | rfl) h
  · exact h.param value (by decide) (by decide) (by decide)
  · exact h.param value (by decide) (by decide) (by decide)

end Proper

/-! ## Shapes of requests -/

/-- The endpoints that ask for no more than a requester. -/
def isPlain (e : Endpoint) : Bool := e != .health && e != .postDetails

/-- Bounds within which every number is a limit. -/
def AreLimits (lo hi : Nat) : Prop := 1 ≤ lo ∧ lo ≤ hi ∧ hi ≤ maxLimit

instance (lo hi : Nat) : Decidable (AreLimits lo hi) :=
  inferInstanceAs (Decidable (1 ≤ lo ∧ lo ≤ hi ∧ hi ≤ maxLimit))

section Shapes

variable {p : String → Prop} {e : Endpoint} (plain : isPlain e = true)

include plain

theorem proper_of_requester {ps : Params}
    (requester : (Params.get? ps requesterKey).isSome = true)
    (unlimited : Params.get? ps "limit" = none) : Proper p ⟨e, ps, .ok⟩ where
  expects := rfl
  on_feed := by
    rintro rfl
    cases plain
  requester := Or.inr requester
  limit := by
    intro s found
    rw [unlimited] at found
    cases found
  post := by
    rintro rfl
    cases plain

theorem asked_proper (who : String) : Proper p ⟨e, [(requesterKey, who)], .ok⟩ :=
  proper_of_requester plain rfl rfl

/-- A request about a subject whose name is not the limit's. -/
theorem about_proper {key : String} (no_limit : "limit" ≠ key) (subject who : String) :
    Proper p ⟨e, [(key, subject), (requesterKey, who)], .ok⟩ := by
  refine proper_of_requester plain rfl ?_
  have none_left : Params.get? [(key, subject)] "limit" = none := by
    simp [Params.get?, List.lookup_cons, beq_eq_false_iff_ne.mpr no_limit]
  have skipped : Params.get? ([(key, subject)] ++ [(requesterKey, who)]) "limit" =
      Params.get? [(key, subject)] "limit" := Params.get?_append_other (by decide) who
  exact skipped.trans none_left

end Shapes

/-- The list of users needs no requester. -/
theorem users_proper {p : String → Prop} : Proper p ⟨.users, [], .ok⟩ where
  expects := rfl
  on_feed := nofun
  requester := Or.inl rfl
  limit := by
    intro s found
    cases found
  post := by
    intro details
    cases details

theorem postDetails_proper {p : String → Prop} {id : String} (holds : p id) (who : String) :
    Proper p ⟨.postDetails, [("id", id), (requesterKey, who)], .ok⟩ where
  expects := rfl
  on_feed := nofun
  requester := Or.inr rfl
  limit := by
    intro s found
    cases found
  post := fun _ => ⟨id, rfl, holds⟩

/-- A well-formed opening makes a proper request by itself. -/
theorem proper_of_opening {p : String → Prop} {q : String → String → Prop} {who : String}
    {e : Endpoint} {ps : List (String × String)} (on_feed : e ≠ .health)
    (ids : ∀ id, q "id" id → p id) (opening : Opening q who e ps) : Proper p ⟨e, ps, .ok⟩ := by
  have isPlain_of (other : e ≠ .postDetails) : isPlain e = true := by
    simp [isPlain, on_feed, other]
  cases opening with
  | users => exact users_proper
  | asked plain => exact asked_proper (isPlain_of plain) who
  | about plain known _ =>
    refine about_proper (isPlain_of plain) ?_ _ who
    rintro rfl
    simp at known
  | graph plain _ =>
    exact (asked_proper (isPlain_of plain) who).param _ (by decide) (by decide) (by decide)
  | details holds => exact postDetails_proper (ids _ holds) who

/-- Whether the rules treat a request to the feed the way it expects. -/
structure Foreseen (r : Request) : Prop where
  on_feed : r.endpoint ≠ .health
  answered : r.expect = .ok → ∃ body, respond r.endpoint.path r.params = .ok body
  refused : r.expect = .clientError →
    ∃ refusal, respond r.endpoint.path r.params = .error refusal

/-- A request as recipes make them: proper, or malformed so that it breaks a rule. -/
inductive Made (p : String → Prop) : Request → Prop where
  | proper {r : Request} (h : Proper p r) : Made p r
  | malformed {r : Request} (on_feed : r.endpoint ≠ .health) (refusal : Refusal)
      (refused : respond r.endpoint.path r.params = .error refusal) : Made p r.expectClientError

theorem Made.on_feed {p : String → Prop} {r : Request} (h : Made p r) : r.endpoint ≠ .health := by
  cases h with
  | proper h => exact h.on_feed
  | malformed on_feed refusal refused => exact on_feed

theorem Made.foreseen {r : Request} (h : Made (isPostId · = true) r) : Foreseen r := by
  cases h with
  | proper h =>
    refine ⟨h.on_feed, fun _ => h.respond_ok, fun other => ?_⟩
    rw [h.expects] at other
    cases other
  | malformed on_feed refusal refused => exact ⟨on_feed, nofun, fun _ => ⟨refusal, refused⟩⟩

theorem Proper.foreseen {r : Request} (h : Proper (isPostId · = true) r) : Foreseen r :=
  (Made.proper h).foreseen

/-- Every malformed request breaks the rule that it is made to break. -/
theorem errorCondition_made (p : String → Prop) (index : Nat) (ctx : Context) :
    Made p (Recipe.errorCondition index ctx) := by
  have kinds : index % 5 = 0 ∨ index % 5 = 1 ∨ index % 5 = 2 ∨ index % 5 = 3 ∨ index % 5 = 4 := by
    omega
  rcases kinds with kind | kind | kind | kind | kind <;>
    simp only [Recipe.errorCondition, Recipe.errorConditionCount, kind]
  · exact .malformed nofun .requester rfl
  · exact .malformed nofun .requester rfl
  · exact .malformed nofun .limit rfl
  · exact .malformed nofun .limit rfl
  · have no_id : isPostId "invalid_post_id" = false := by decide +kernel
    refine .malformed nofun .postId ?_
    simp [respond, Params.get?, requesterKey, Endpoint.path, List.lookup_cons, no_id]

/-! ## The requests of recipes -/

/-- Samples that every request for post details can be made from. -/
structure Usable (s : Samples) : Prop where
  filled : s.postIds ≠ []
  postIds : ∀ id ∈ s.postIds, isPostId id = true
  fallback : isPostId s.fallbackPostId = true

def requestCount : Recipe → Nat
  | .rapidPagination => 3
  | _ => 1

theorem randomPostId_isPostId {s : Samples} (usable : Usable s) :
    Yields s.randomPostId (isPostId · = true) :=
  (randomPostId_yields usable.filled).mono usable.postIds

theorem pickPost_isPostId {session : Session} {fallback : String}
    (known : ∀ id ∈ session.posts, isPostId id = true) (otherwise : isPostId fallback = true) :
    Yields (session.pickPost fallback) (isPostId · = true) :=
  Yields.bind (pick?_getD known otherwise) fun _ isId => Yields.pure isId

def browse (ctx : Context) (n : Nat) : Request :=
  (Request.mk .contentsFollowing [(requesterKey, ctx.requester)] .ok).limit n

theorem browse_proper {p : String → Prop} (ctx : Context) {n : Nat} (limits : AreLimits n n) :
    Proper p (browse ctx n) :=
  (asked_proper rfl ctx.requester).withLimit limits.1 limits.2.2

theorem browse_yields (ctx : Context) (session : Session) :
    Yields (Recipe.browseFollowingFeed.requests ctx session) fun rs =>
      ∃ n, AreLimits n n ∧ rs = [browse ctx n] := by
  have sizes : ∀ n ∈ [10, 20, 30], AreLimits n n := by decide
  have otherwise : AreLimits 20 20 := by decide
  refine Yields.bind (pick?_getD sizes otherwise) fun size drawn => Yields.pure ?_
  exact ⟨size.getD 20, drawn, rfl⟩

/-- Whatever is drawn, a recipe gives as many requests as it should.  Each is malformed on purpose
or proper, with an identifier that has whatever property the samples and the session give it. -/
theorem requests_made {p : String → Prop} {ctx : Context} {session : Session}
    (listed : Yields ctx.samples.randomPostId p)
    (opened : Yields (session.pickPost ctx.samples.fallbackPostId) p) (recipe : Recipe) :
    Yields (recipe.requests ctx session) fun rs =>
      rs.length = requestCount recipe ∧ ∀ r ∈ rs, Made p r := by
  by_cases malformed : recipe = .errorConditions
  · subst malformed
    refine Yields.bind (Yields.trivial _) fun index _ => Yields.pure ⟨rfl, ?_⟩
    intro r member
    rw [List.mem_singleton.mp member]
    exact errorCondition_made p index ctx
  · have on_feed : recipe.endpoint ≠ .health := by cases recipe <;> decide
    have count : requestCount recipe = if recipe = .rapidPagination then 3 else 1 := by
      cases recipe <;> rfl
    have limited (r : Request) (n : Nat) (pos : 1 ≤ n) (small : n ≤ 100) (proper : Proper p r) :
        Proper p (r.limit n) := proper.withLimit pos small
    let asId (name value : String) : Prop := name = "id" → p value
    have supplied : Supplies asId ctx session :=
      { users := (Yields.trivial _).mono fun _ _ => ⟨nofun, nofun⟩
        posts := listed.mono fun _ holds => ⟨nofun, fun _ => holds⟩
        remembered := opened.mono fun _ holds _ => holds
        requester := nofun }
    have opens (ps : List (String × String))
        (opening : Opening asId ctx.requester recipe.endpoint ps) :
        Proper p ⟨recipe.endpoint, ps, .ok⟩ :=
      proper_of_opening on_feed (fun _ holds => holds rfl) opening
    refine (requests_keep limited supplied Proper.ignoresCursors opens malformed).mono ?_
    rintro rs ⟨length, proper⟩
    exact ⟨length.trans count.symm, fun r member => .proper (proper r member)⟩

/-- From usable samples and known posts, every request is treated the way it expects. -/
theorem requests_foreseen {ctx : Context} {session : Session} (usable : Usable ctx.samples)
    (known : ∀ id ∈ session.posts, isPostId id = true) (recipe : Recipe) :
    Yields (recipe.requests ctx session) fun rs =>
      rs.length = requestCount recipe ∧ ∀ r ∈ rs, Foreseen r := by
  have listed := randomPostId_isPostId usable
  have opened := pickPost_isPostId known usable.fallback
  refine (requests_made listed opened recipe).mono ?_
  rintro rs ⟨length, made⟩
  exact ⟨length, fun r member => (made r member).foreseen⟩

end FeedTraffic.Mock
