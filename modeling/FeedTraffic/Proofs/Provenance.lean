import FeedTraffic.Proofs.Draws
import FeedTraffic.Proofs.Measuring
import FeedTraffic.Proofs.Visitors

/-!
# Where remembered posts come from

What a session remembers is decided by one kind of request alone: the pages that a visitor asked
for to browse and that passed.  So a post that a visitor opens was on one of those pages, among
its first three, or is the fallback that is there for a session without posts.
-/

namespace FeedTraffic.User

open FeedTraffic.Random

/-- A session picks one of its posts, or the fallback if it remembers none. -/
theorem Session.pickPost_yields (s : Session) (fallback : String) :
    Yields (s.pickPost fallback) fun id =>
      (s.posts ≠ [] → id ∈ s.posts) ∧ (s.posts = [] → id = fallback) := by
  by_cases filled : s.posts = []
  · rw [Session.pickPost, filled]
    exact Yields.pure ⟨fun other => absurd rfl other, fun _ => rfl⟩
  · refine Yields.bind (pick?_mem filled) ?_
    rintro _ ⟨id, member, rfl⟩
    exact Yields.pure ⟨fun _ => member, fun empty => absurd empty filled⟩

end FeedTraffic.User

namespace FeedTraffic.Traffic.Visitor

open FeedTraffic.Feed FeedTraffic.Http FeedTraffic.Random FeedTraffic.User

variable {σ : Type}

/-! ## What is sent -/

/-- Every request that is sent is measured and ends as its reply demands. -/
theorem sendAll_settles (service : Service σ) (base : Url) (rs : List Request) (s : σ) :
    ∀ sent ∈ (sendAll service base rs s).1, ∃ state,
      sent.Settles sent.request (exchange service (address base sent.request) state).1 := by
  induction rs generalizing s with
  | nil =>
    intro sent member
    cases member
  | cons r rs ih =>
    intro sent member
    have first : (send service base r s).1 =
        .ofReply r (exchange service (address base r) s).1 := rfl
    rw [sendAll_cons] at member
    have cases_of : sent = (send service base r s).1 ∨
        sent ∈ (sendAll service base rs (send service base r s).2).1 := by
      by_cases failed : (send service base r s).1.failure?.isSome
      · simp only [failed, if_true, List.mem_singleton] at member
        exact Or.inl member
      · simpa only [failed, Bool.false_eq_true, if_false, List.mem_cons] using member
    rcases cases_of with rfl | later
    · refine ⟨s, ?_⟩
      rw [send_request, first]
      exact Sent.settles r _
    · exact ih _ sent later

/-- A single request is always sent. -/
theorem sendAll_singleton (service : Service σ) (base : Url) (r : Request) (s : σ) :
    (sendAll service base [r] s).1.map (·.request) = [r] := by
  have none_left (after : σ) : sendAll service base [] after = ([], after) := rfl
  rw [sendAll_cons]
  by_cases failed : (send service base r s).1.failure?.isSome <;>
    simp [failed, send_request, none_left]

theorem viewPostDetails_yields (ctx : Context) (s : Session) :
    Yields (Recipe.viewPostDetails.requests ctx s) fun rs =>
      ∃ id, rs = [⟨.postDetails, [("id", id), (requesterKey, ctx.requester)], .ok⟩] ∧
        (s.posts ≠ [] → id ∈ s.posts) ∧ (s.posts = [] → id = ctx.samples.fallbackPostId) :=
  Yields.bind (s.pickPost_yields _) fun id drawn => Yields.pure ⟨id, rfl, drawn⟩

/-! ## One recipe -/

theorem passedPages_eq_nil {recipe : Recipe} {sent : List Sent}
    (idle : recipe ≠ .browseFollowingFeed ∨ ∀ s ∈ sent, ∀ body, s.outcome ≠ .passed body) :
    passedPages recipe sent = [] := by
  rcases idle with other | none_passed
  · exact if_neg other
  · rw [passedPages]
    split
    · rw [List.filterMap_eq_nil_iff]
      intro s member
      cases ended : s.outcome with
      | passed body => exact absurd ended (none_passed s member body)
      | lost cause address => rw [Sent.body?, ended]
      | failed last message => rw [Sent.body?, ended]
    · rfl

/-! ## Many recipes -/

structure Holds (kept : Samples) (s : Session) (v : Visitor σ) : Prop where
  session : v.session = some s
  store : v.store.view = kept

theorem begun_holds (v : Visitor σ) :
    Holds v.store.view { requester := (v.store.view.randomPubkey v.words).1 } (begun v) where
  session := rfl
  store := rfl

variable {kept : Samples} {s : Session} {v : Visitor σ}

/-- A recipe adds to the memory what the passed pages hold that it asked for to browse. -/
theorem Holds.perform (holds : Holds kept s v) (site : Site σ) (now : Nat) (recipe : Recipe) :
    let done := Visitor.perform site now recipe v
    Holds kept (s.rememberAll (passedPages recipe done.1)).2 done.2 := by
  intro done
  have performs : done = _ := perform_of_some site now recipe holds.session
  rw [performs]
  exact ⟨rfl, holds.store⟩

def allPassedPages (history : List (Nat × Recipe)) (turns : List (List Sent)) : List String :=
  (history.zip turns).flatMap fun (task, sent) => passedPages task.2 sent

theorem Holds.runRecipes (holds : Holds kept s v) (site : Site σ)
    (history : List (Nat × Recipe)) :
    let visit := Visitor.runRecipes site history v
    Holds kept (s.rememberAll (allPassedPages history visit.1)).2 visit.2 := by
  induction history generalizing s v with
  | nil => exact holds
  | cons task history ih =>
    obtain ⟨now, recipe⟩ := task
    have later := ih (holds.perform site now recipe)
    rw [runRecipes_cons]
    simp only [allPassedPages, List.zip_cons_cons, List.flatMap_cons, Session.rememberAll_append]
    exact later

theorem runRecipes_settles (site : Site σ) (history : List (Nat × Recipe)) (v : Visitor σ)
    (started : v.session.isSome = true) :
    ∀ turn ∈ (runRecipes site history v).1, ∀ sent ∈ turn, ∃ state, sent.Settles sent.request
      (exchange site.service (address site.base sent.request) state).1 := by
  induction history generalizing v with
  | nil =>
    intro turn member
    cases member
  | cons task history ih =>
    obtain ⟨now, recipe⟩ := task
    obtain ⟨s, known⟩ := Option.isSome_iff_exists.mp started
    intro turn member
    rw [runRecipes_cons, perform_of_some site now recipe known] at member
    rcases List.mem_cons.mp member with rfl | later
    · exact sendAll_settles _ _ _ _
    · exact ih _ rfl turn later

/-! ## Opening a post -/

theorem Holds.viewPostDetails (holds : Holds kept s v) (site : Site σ) (now : Nat) :
    ∃ id, (Visitor.perform site now .viewPostDetails v).1.map (·.request) =
        [⟨.postDetails, [("id", id), (requesterKey, s.requester)], .ok⟩] ∧
      (s.posts ≠ [] → id ∈ s.posts) ∧ (s.posts = [] → id = kept.fallbackPostId) := by
  obtain ⟨id, asked, chosen⟩ :=
    viewPostDetails_yields ⟨v.store.view, s.requester, now⟩ s v.words True.intro
  refine ⟨id, ?_, holds.store ▸ chosen⟩
  rw [perform_of_some site now _ holds.session]
  have one : (drawn now .viewPostDetails v s).1 = _ := asked
  rw [exchanged, one, sendAll_singleton]

/-- Nothing is remembered that was on none of the pages. -/
theorem mem_rememberAll {s : Session} {bodies : List String} {id : String}
    (member : id ∈ (s.rememberAll bodies).2.posts) :
    id ∈ s.posts ∨ ∃ body ∈ bodies, id ∈ Session.discoveries body := by
  induction bodies generalizing s with
  | nil => exact Or.inl member
  | cons body rest ih =>
    rcases ih member with before | ⟨later, among, found⟩
    · rcases Session.mem_remember before with old | new
      · exact Or.inl old
      · exact Or.inr ⟨body, List.mem_cons_self, new⟩
    · exact Or.inr ⟨later, List.mem_cons_of_mem _ among, found⟩

theorem mem_discoveries {body id : String} (found : id ∈ Session.discoveries body) :
    ∃ page, Page.ofBody? body = some page ∧ some id ∈ page.posts.take 3 := by
  cases read : Page.ofBody? body with
  | none => simp [Session.discoveries, read] at found
  | some page =>
    simp only [Session.discoveries, read, List.mem_filterMap, id_eq] at found
    obtain ⟨_, member, rfl⟩ := found
    exact ⟨page, rfl, member⟩

/-- A visitor begins a session and then runs recipes, in whatever order, at any times and with
any service.  What its session remembers in the end is what it learns from the bodies of the
passed pages that it asked for to browse, one after another; whether a request passed is decided
by the verdict on the service's reply.  Any next recipe changes nothing unless it browses and its
page passes.  If the next recipe opens a post, this is one that the session remembers, or the
fallback if it remembers none; so it is the fallback or among the first three of an earlier passed
page. -/
theorem memory_of_passed_pages (site : Site σ) (start : Nat) (newcomer : Visitor σ)
    (history : List (Nat × Recipe)) :
    let kept := newcomer.store.view
    let begun := (act site start .startSession newcomer).2
    let turns := (runRecipes site history begun).1
    let visitor := (runRecipes site history begun).2
    let pages := allPassedPages history turns
    (∀ turn ∈ turns, ∀ sent ∈ turn, ∃ state, sent.Settles sent.request
      (exchange site.service (address site.base sent.request) state).1) ∧
    ∃ first session, begun.session = some first ∧ first.posts = [] ∧
      session = (first.rememberAll pages).2 ∧ visitor.session = some session ∧
      (∀ now recipe, let turn := perform site now recipe visitor
        recipe ≠ .browseFollowingFeed ∨ (∀ sent ∈ turn.1, ∀ body, sent.outcome ≠ .passed body) →
          turn.2.session = some session) ∧
      ∀ now, ∃ id,
        (perform site now .viewPostDetails visitor).1.map (·.request) =
            [⟨.postDetails, [("id", id), (requesterKey, session.requester)], .ok⟩] ∧
          (session.posts ≠ [] → id ∈ session.posts) ∧
          (session.posts = [] → id = kept.fallbackPostId) ∧
          (id = kept.fallbackPostId ∨ ∃ body ∈ pages, ∃ page,
            Page.ofBody? body = some page ∧ some id ∈ page.posts.take 3) := by
  intro kept begun turns visitor pages
  have starts : begun = Visitor.begun newcomer := by
    simp only [begun, act, bind_apply, beginSession_apply]
    rfl
  let first : Session := { requester := (kept.randomPubkey newcomer.words).1 }
  have holds : Holds kept first begun := starts ▸ begun_holds newcomer
  have last : Holds kept (first.rememberAll pages).2 visitor := holds.runRecipes site history
  refine ⟨?_, first, (first.rememberAll pages).2, holds.session, rfl, rfl, last.session, ?_, ?_⟩
  · apply runRecipes_settles
    rw [holds.session]
    rfl
  · intro now recipe turn idle
    have kept_in_mind := (last.perform site now recipe).session
    rwa [passedPages_eq_nil idle] at kept_in_mind
  · intro now
    obtain ⟨id, asked, known, otherwise⟩ := last.viewPostDetails site now
    refine ⟨id, asked, known, otherwise, ?_⟩
    by_cases filled : (first.rememberAll pages).2.posts = []
    · exact Or.inl (otherwise filled)
    · rcases mem_rememberAll (known filled) with before | ⟨body, among, found⟩
      · cases before
      · exact Or.inr ⟨body, among, mem_discoveries found⟩

end FeedTraffic.Traffic.Visitor
