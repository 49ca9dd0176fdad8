import FeedTraffic.Proofs.Requesters

/-!
# The endpoints that tasks hit

A task is listed under one endpoint, and every request that it sends goes there.  The task of the
malformed requests is the exception: it sends one of five, which break rules of three endpoints,
and is listed under the first of these.
-/

namespace FeedTraffic.User

open FeedTraffic.Feed FeedTraffic.Random

/-- All that a recipe asks for is under its endpoint, if the requests are not malformed. -/
theorem requests_endpoint (ctx : Context) (session : Session) {recipe : Recipe}
    (wellFormed : recipe ≠ .errorConditions) :
    Yields (recipe.requests ctx session) fun rs =>
      rs ≠ [] ∧ ∀ r ∈ rs, r.endpoint = recipe.endpoint := by
  let here (r : Request) : Prop := r.endpoint = recipe.endpoint
  have limited (r : Request) (n : Nat) (_ : 1 ≤ n) (_ : n ≤ 100) (same : here r) :
      here (r.limit n) := same
  have free : Request.IgnoresCursors here := fun _ _ _ _ same => same
  have opens (ps : List (String × String))
      (_ : Opening (fun _ _ => True) ctx.requester recipe.endpoint ps) :
      here ⟨recipe.endpoint, ps, .ok⟩ := rfl
  refine (requests_keep limited (Supplies.anything ctx session) free opens wellFormed).mono ?_
  rintro rs ⟨length, same⟩
  refine ⟨?_, same⟩
  rintro rfl
  split at length <;> cases length

/-- The second malformed request asks for mentions and the fifth for a post; the others ask for
posts of a user. -/
theorem errorCondition_endpoint {index : Nat} (small : index < 5) (ctx : Context) :
    (Recipe.errorCondition index ctx).endpoint =
      if index = 1 then .mentions else if index = 4 then .postDetails else .posts := by
  have kinds : index = 0 ∨ index = 1 ∨ index = 2 ∨ index = 3 ∨ index = 4 := by omega
  rcases kinds with rfl | rfl | rfl | rfl | rfl <;> rfl

end FeedTraffic.User

namespace FeedTraffic.Traffic.Visitor

open FeedTraffic.Feed FeedTraffic.Http FeedTraffic.Random FeedTraffic.User

variable {σ : Type}

theorem sendAll_ne_nil (service : Service σ) (base : Url) {rs : List Request} (filled : rs ≠ [])
    (s : σ) : (sendAll service base rs s).1 ≠ [] := by
  obtain ⟨r, rest, rfl⟩ := List.exists_cons_of_ne_nil filled
  rw [sendAll_cons]
  by_cases failed : (send service base r s).1.failure?.isSome <;> simp [failed]

/-- Whatever a visitor runs, it runs with a session, which may have begun just now. -/
theorem exists_session (site : Site σ) (now : Nat) (recipe : Recipe) (v : Visitor σ) :
    ∃ w s, w.session = some s ∧ perform site now recipe v = perform site now recipe w := by
  cases session : v.session with
  | none => exact ⟨begun v, _, rfl, perform_of_none site now recipe session⟩
  | some s => exact ⟨v, s, session, rfl⟩

theorem perform_endpoint (site : Site σ) (now : Nat) (v : Visitor σ) {recipe : Recipe}
    (wellFormed : recipe ≠ .errorConditions) :
    (perform site now recipe v).1 ≠ [] ∧
      ∀ sent ∈ (perform site now recipe v).1, sent.request.endpoint = recipe.endpoint := by
  obtain ⟨w, s, known, same⟩ := exists_session site now recipe v
  obtain ⟨filled, here⟩ :=
    requests_endpoint ⟨w.store.view, s.requester, now⟩ s wellFormed w.words True.intro
  rw [same]
  constructor
  · rw [perform_of_some site now recipe known]
    exact sendAll_ne_nil site.service site.base filled w.service
  · intro sent member
    exact here _ (perform_requests known site now recipe sent member)

/-- One malformed request is sent, whatever becomes of it. -/
theorem perform_errorConditions (site : Site σ) (now : Nat) (v : Visitor σ) :
    ∃ sent, (perform site now .errorConditions v).1 = [sent] ∧
      ∃ index < 5, ∃ ctx, sent.request = Recipe.errorCondition index ctx := by
  obtain ⟨w, s, known, same⟩ := exists_session site now .errorConditions v
  obtain ⟨index, small, drawn_eq⟩ :=
    errorConditions_yields ⟨w.store.view, s.requester, now⟩ s w.words True.intro
  have one : (drawn now .errorConditions w s).1 = _ := drawn_eq
  have requests : (exchanged site now .errorConditions w s).1.map (·.request) =
      [Recipe.errorCondition index ⟨w.store.view, s.requester, now⟩] := by
    rw [exchanged, one, sendAll_singleton]
  obtain ⟨sent, single, request⟩ := List.map_eq_singleton_iff.mp requests
  refine ⟨sent, ?_, index, small, _, request⟩
  rw [same, perform_of_some site now .errorConditions known]
  exact single

/-- Every task of the five profiles, with the following feed and without, sends something; all of
it goes to the endpoint under which the task is listed, whatever the service, the time, the
samples, the session and the random words are.  Only the task of the malformed requests, which is
listed under the posts, sends one that goes to the posts, to the mentions or to a single post. -/
theorem tasks_hit_endpoints (site : Site σ) (now : Nat) (v : Visitor σ) (roster : Roster)
    (followingFeed : Bool) :
    ∀ candidate ∈ roster.candidates followingFeed, ∀ task ∈ candidate.2.tasks,
      let turn := (perform site now task.recipe v).1
      turn ≠ [] ∧
      (task.recipe ≠ .errorConditions →
        ∀ sent ∈ turn, sent.request.endpoint = task.recipe.endpoint) ∧
      (task.recipe = .errorConditions → task.recipe.endpoint = .posts ∧
        ∃ sent, turn = [sent] ∧ ∃ index < 5, ∃ ctx,
          sent.request = Recipe.errorCondition index ctx ∧
          sent.request.endpoint =
            if index = 1 then .mentions else if index = 4 then .postDetails else .posts) := by
  intro candidate _ task _ turn
  by_cases malformed : task.recipe = .errorConditions
  · obtain ⟨sent, single, index, small, ctx, request⟩ := perform_errorConditions site now v
    have alone : turn = [sent] := by
      rw [← single, ← malformed]
    refine ⟨alone ▸ List.cons_ne_nil _ _, fun other => absurd malformed other, fun _ => ?_⟩
    refine ⟨congrArg Recipe.endpoint malformed, sent, alone, index, small, ctx, request, ?_⟩
    rw [request, errorCondition_endpoint small ctx]
  · obtain ⟨filled, here⟩ := perform_endpoint site now v malformed
    exact ⟨filled, fun _ => here, fun same => absurd same malformed⟩

/-- A visitor of the built-in samples without a session, at a service that does not answer. -/
def idle (words : Words) : Visitor Unit := { words := words, service := () }

def quiet : Site Unit :=
  ⟨Service.unreachable, { scheme := "http", authority := some "127.0.0.1:8080", path := "/" }⟩

/-- The task that pages through the watched feed asks for nothing but that feed. -/
theorem tasks_hit_endpoints_pagination :
    (({}, .heavy false) : Overrides × Profile) ∈ Roster.candidates {} false ∧
      (⟨.rapidPagination, 3⟩ : Task) ∈ (Profile.heavy false).tasks ∧
      Recipe.rapidPagination ≠ .errorConditions ∧
      (perform quiet 20000 .rapidPagination (idle (.cyclic []))).1.map (·.request.endpoint) =
        [.postsWatching, .postsWatching, .postsWatching] := by
  have candidate : (({}, .heavy false) : Overrides × Profile) ∈ Roster.candidates {} false :=
    .tail _ (.head _)
  have task : (⟨.rapidPagination, 3⟩ : Task) ∈ (Profile.heavy false).tasks := .head _
  obtain ⟨-, here, -⟩ :=
    tasks_hit_endpoints quiet 20000 (idle (.cyclic [])) {} false _ candidate _ task
  refine ⟨candidate, task, by decide, ?_⟩
  have three : (perform quiet 20000 .rapidPagination (idle (.cyclic []))).1.length = 3 := by
    decide +kernel
  refine List.eq_replicate_iff.mpr ⟨(List.length_map _).trans three, ?_⟩
  intro e member
  obtain ⟨sent, among, rfl⟩ := List.mem_map.mp member
  exact here (by decide) sent among

/-- Not every request goes to the endpoint of its task: a word that picks the second malformed
request makes a task that is listed under the posts ask for mentions. -/
theorem mentions_under_posts :
    (({}, .api false) : Overrides × Profile) ∈ Roster.candidates {} false ∧
      (⟨.errorConditions, 1⟩ : Task) ∈ (Profile.api false).tasks ∧
      (perform quiet 20000 .errorConditions (idle (.cyclic [0, 0x4ccccccc00000000]))).1.map
        (·.request.endpoint) = [.mentions] ∧
      Recipe.errorConditions.endpoint = .posts := by
  refine ⟨.head _, by decide, ?_, rfl⟩
  decide +kernel

end FeedTraffic.Traffic.Visitor
