import FeedTraffic.Proofs.Answers
import FeedTraffic.Proofs.Visitors

/-!
# Whole visits to the mock feed

A visitor whose samples are usable never fails at the mock feed, whatever it does and in whatever
order.  What carries this over a visit is that all remembered posts are identifiers: they come
from pages of the mock, and requests for post details are made from them.
-/

namespace FeedTraffic.Traffic.Visitor

open FeedTraffic.Feed FeedTraffic.Http FeedTraffic.Mock FeedTraffic.Random FeedTraffic.Stateful
open FeedTraffic.User

/-! ## One action -/

/-- Every post that a session remembers is an identifier. -/
def Known (session : Session) : Prop := ∀ id ∈ session.posts, isPostId id = true

/-- What stays true of a visitor to the mock feed. -/
structure Sound (kept : Samples) (v : Visitor Server) : Prop where
  store : v.store.view = kept
  unforced : v.service.forced = none
  known : ∀ session, v.session = some session → Known session

variable {kept : Samples}

theorem samples_ensures :
    Ensures (Sound kept) samples fun s v => s = kept ∧ Sound kept v := by
  intro v sound
  rw [samples_apply]
  exact ⟨sound.store, sound.store, sound.unforced, sound.known⟩

theorem draw_ensures {α : Type} {d : Draw α} {p : α → Prop} (h : Yields d p) :
    Ensures (Sound kept) (draw d) fun a v => p a ∧ Sound kept v := by
  intro v sound
  exact ⟨h v.words True.intro, sound.store, sound.unforced, sound.known⟩

/-- A change of the session to one that knows identifiers only. -/
theorem modify_ensures {session : Session} (known : Known session) :
    Ensures (Sound kept) (modify fun v => { v with session := some session })
      fun _ v => Sound kept v := by
  intro v sound
  refine ⟨sound.store, sound.unforced, ?_⟩
  rintro _ ⟨⟩
  exact known

theorem start_yields (s : Samples) : Yields (Session.start s) Known := by
  refine Yields.bind (Yields.trivial _) fun requester _ => Yields.pure ?_
  exact List.forall_mem_nil _

theorem beginSession_ensures :
    Ensures (Sound kept) beginSession fun session v => Known session ∧ Sound kept v := by
  refine Ensures.bind samples_ensures fun s => Ensures.given fun _ => ?_
  refine Ensures.bind (draw_ensures (start_yields s)) fun session => Ensures.given fun known => ?_
  refine Ensures.bind (modify_ensures known) fun _ => Ensures.pure fun v sound => ?_
  exact ⟨known, sound⟩

theorem current_ensures :
    Ensures (Sound kept) current fun session v => Known session ∧ Sound kept v := by
  intro v sound
  cases session : v.session with
  | none =>
    rw [current_of_none session]
    exact beginSession_ensures v sound
  | some s =>
    rw [current_of_some session]
    exact ⟨sound.known s session, sound⟩

theorem remember_known {session : Session} (known : Known session) {body : String}
    (found : ∀ id ∈ Session.discoveries body, isPostId id = true) :
    Known (session.remember body).2 := by
  intro id member
  rcases Session.mem_remember member with before | new
  · exact known id before
  · exact found id new

theorem remember_ensures {body : String}
    (found : ∀ id ∈ Session.discoveries body, isPostId id = true) :
    Ensures (Sound kept) (remember body) fun _ v => Sound kept v := by
  refine Ensures.bind current_ensures fun session => Ensures.given fun known => ?_
  exact modify_ensures (remember_known known found)

def mockSite (base : Url) : Site Server := ⟨Server.service, base⟩

/-- What is sent to the mock feed, and what comes of it. -/
def settled (r : Request) : Sent := .ofResponse r (Server.reception r)

theorem submit_ensures (base : Url) {rs : List Request} (foreseen : ∀ r ∈ rs, Foreseen r) :
    Ensures (Sound kept) (submit (mockSite base) rs) fun sent v =>
      sent = rs.map settled ∧ Sound kept v := by
  intro v sound
  obtain ⟨all, left⟩ := Server.sendAll_mock base foreseen sound.unforced
  exact ⟨all, sound.store, left, sound.known⟩

/-- Whether requests are as many as they should be and all of them passed. -/
def AllPassed (count : Nat) (sent : List Sent) : Prop :=
  sent.length = count ∧ ∀ s ∈ sent, ∃ body, s.outcome = .passed body

theorem allPassed_settled {count : Nat} {rs : List Request} (length : rs.length = count)
    (foreseen : ∀ r ∈ rs, Foreseen r) : AllPassed count (rs.map settled) := by
  refine ⟨(List.length_map _).trans length, ?_⟩
  intro s member
  obtain ⟨r, asked, rfl⟩ := List.mem_map.mp member
  exact ⟨_, Server.outcome_reception (foreseen r asked)⟩

/-- The posts of a browsed page are identifiers. -/
theorem discoveries_browse (ctx : Context) {n : Nat} (limits : AreLimits n n) :
    ∀ body ∈ ([browse ctx n].map settled).filterMap (·.body?),
      ∀ id ∈ Session.discoveries body, isPostId id = true := by
  have passed := Server.outcome_reception (browse_proper ctx limits).foreseen
  have bodies : ([browse ctx n].map settled).filterMap (·.body?) =
      [(Server.reception (browse ctx n)).text] := by
    simp only [settled, List.map_cons, List.map_nil, List.filterMap_cons, List.filterMap_nil,
      Sent.body?, passed]
  intro body member id found
  rw [bodies, List.mem_singleton, Server.reception_browse ctx limits] at member
  rw [member, page, Server.text_ofJson] at found
  exact Server.discoveries_page found

def actionCount : Action → Nat
  | .startSession => 0
  | .run recipe => requestCount recipe

/-- What a recipe asks for at the mock feed; only one request is made to browse. -/
theorem requests_foreseen_of_browsing {s : Samples} {session : Session} (usable : Usable s)
    (known : Known session) (recipe : Recipe) (now : Nat) :
    Yields (recipe.requests ⟨s, session.requester, now⟩ session) fun rs =>
      (rs.length = requestCount recipe ∧ ∀ r ∈ rs, Foreseen r) ∧
        (recipe = .browseFollowingFeed → ∃ ctx n, AreLimits n n ∧ rs = [browse ctx n]) := by
  refine Yields.and (requests_foreseen usable known recipe) ?_
  intro w start browsing
  subst browsing
  exact ⟨_, browse_yields ⟨s, session.requester, now⟩ session w start⟩

theorem prepare_ensures (usable : Usable kept) (now : Nat) (recipe : Recipe) :
    Ensures (Sound kept) (prepare now recipe) fun rs v =>
      ((rs.length = requestCount recipe ∧ ∀ r ∈ rs, Foreseen r) ∧
        (recipe = .browseFollowingFeed → ∃ ctx n, AreLimits n n ∧ rs = [browse ctx n])) ∧
        Sound kept v := by
  refine Ensures.bind current_ensures fun session => Ensures.given fun known => ?_
  refine Ensures.bind samples_ensures fun s => Ensures.given ?_
  rintro rfl
  exact draw_ensures (requests_foreseen_of_browsing usable known recipe now)

/-- Every recipe's requests pass, and what is remembered of their answers are identifiers. -/
theorem perform_ensures (usable : Usable kept) (base : Url) (now : Nat) (recipe : Recipe) :
    Ensures (Sound kept) (perform (mockSite base) now recipe) fun sent v =>
      AllPassed (requestCount recipe) sent ∧ Sound kept v := by
  refine Ensures.bind (prepare_ensures usable now recipe) fun rs => Ensures.given ?_
  rintro ⟨⟨length, foreseen⟩, browsed⟩
  have passed := allPassed_settled length foreseen
  refine Ensures.bind (submit_ensures base foreseen) fun sent => Ensures.given ?_
  rintro rfl
  have done : Ensures (Sound kept) (pure (rs.map settled)) fun sent v =>
      AllPassed (requestCount recipe) sent ∧ Sound kept v :=
    Ensures.pure fun v sound => ⟨passed, sound⟩
  refine Ensures.ite (fun browsing => ?_) (fun _ => done)
  obtain ⟨ctx, n, limits, rfl⟩ := browsed browsing
  have pages := discoveries_browse ctx limits
  exact Ensures.bind (Ensures.forM _ fun body member => remember_ensures (pages body member))
    fun _ => done

/-- Every action's requests pass. -/
theorem act_ensures (usable : Usable kept) (base : Url) (now : Nat) (action : Action) :
    Ensures (Sound kept) (act (mockSite base) now action) fun sent v =>
      AllPassed (actionCount action) sent ∧ Sound kept v := by
  cases action with
  | startSession =>
    refine Ensures.bind beginSession_ensures fun session => Ensures.given fun _ => ?_
    exact Ensures.pure fun v sound => ⟨⟨rfl, List.forall_mem_nil _⟩, sound⟩
  | run recipe => exact perform_ensures usable base now recipe

/-! ## Whole visits -/

theorem run_ensures (usable : Usable kept) (base : Url) (actions : List (Nat × Action)) :
    Ensures (Sound kept) (run (mockSite base) actions) fun turns v =>
      List.Forall₂ (fun a sent => AllPassed (actionCount a.2) sent) actions turns ∧
        Sound kept v := by
  refine Ensures.mapM ?_ actions
  rintro ⟨now, action⟩
  exact act_ensures usable base now action

/-- A visitor who has done nothing yet, at a mock feed that has counted requests of others. -/
def newcomer (kept : Samples) (words : Words) (counts : List (String × Nat)) : Visitor Server :=
  { store := ⟨some kept⟩, words, service := { counts } }

theorem newcomer_sound (kept : Samples) (words : Words) (counts : List (String × Nat)) :
    Sound kept (newcomer kept words counts) where
  store := rfl
  unforced := rfl
  known := nofun

/-- A visitor with usable samples does actions at the mock feed, one after another and at any
times.  They may be tasks of any profile, and the session may be started by an action of its own
or by the first task.  Whatever the random words, each action sends all of its requests and every
one of them passes; and after any number of actions all posts that are remembered are
identifiers. -/
theorem run_passes (kept : Samples) (filled : kept.postIds ≠ [])
    (identifiers : ∀ id ∈ kept.fallbackPostId :: kept.postIds, isPostId id = true) (base : Url)
    (words : Words) (counts : List (String × Nat)) (actions : List (Nat × Action)) :
    List.Forall₂
        (fun a sent => sent.length = actionCount a.2 ∧ ∀ s ∈ sent, ∃ body, s.outcome = .passed body)
        actions (run (mockSite base) actions (newcomer kept words counts)).1 ∧
      ∀ n session,
        (run (mockSite base) (actions.take n) (newcomer kept words counts)).2.session =
            some session →
          ∀ id ∈ session.posts, isPostId id = true := by
  have usable : Usable kept :=
    { filled := filled
      postIds := fun id member => identifiers id (List.mem_cons_of_mem _ member)
      fallback := identifiers _ List.mem_cons_self }
  have sound := newcomer_sound kept words counts
  constructor
  · exact (run_ensures usable base actions _ sound).1
  · intro n session remembered
    exact (run_ensures usable base (actions.take n) _ sound).2.known session remembered

/-- A visit that browses, opens a post that it came across and pages on. -/
theorem run_passes_browsing :
    let base : Url := { scheme := "http", authority := some "127.0.0.1:9000", path := "/" }
    let kept : Samples :=
      { pubkeys := ["02218b37"], postIds := [postId 10], fallbackPostId := postId 11 }
    let actions : List (Nat × Action) :=
      [(90000, .run .browseFollowingFeed), (90004, .run .viewPostDetails),
       (90009, .run .rapidPagination)]
    kept.postIds ≠ [] ∧ (∀ id ∈ kept.fallbackPostId :: kept.postIds, isPostId id = true) ∧
      (∃ browsed opened paged,
        (run (mockSite base) actions (newcomer kept (Words.seeded 7) [])).1 =
            [browsed, opened, paged] ∧
          browsed.length = 1 ∧ opened.length = 1 ∧ paged.length = 3 ∧
          ∀ s ∈ browsed ++ opened ++ paged, ∃ body, s.outcome = .passed body) ∧
      ∀ session,
        (run (mockSite base) (actions.take 1) (newcomer kept (Words.seeded 7) [])).2.session =
            some session →
          ∀ id ∈ session.posts, isPostId id = true := by
  intro base kept actions
  have filled : kept.postIds ≠ [] := List.cons_ne_nil _ _
  have identifiers : ∀ id ∈ kept.fallbackPostId :: kept.postIds, isPostId id = true := by
    intro id member
    simp only [kept, List.mem_cons, List.not_mem_nil, or_false] at member
    rcases member with rfl | rfl
    · exact isPostId_postId (by decide)
    · exact isPostId_postId (by decide)
  obtain ⟨turns, remembered⟩ :=
    run_passes kept filled identifiers base (Words.seeded 7) [] actions
  obtain ⟨browsed, _, first, later, ran⟩ := List.forall₂_cons_left_iff.mp turns
  obtain ⟨opened, _, second, last, rfl⟩ := List.forall₂_cons_left_iff.mp later
  obtain ⟨paged, _, third, none_left, rfl⟩ := List.forall₂_cons_left_iff.mp last
  obtain rfl := List.forall₂_nil_left_iff.mp none_left
  refine ⟨filled, identifiers, ?_, remembered 1⟩
  refine ⟨browsed, opened, paged, ran, first.1, second.1, third.1, ?_⟩
  intro s member
  rcases List.mem_append.mp member with front | back
  · rcases List.mem_append.mp front with front | back
    · exact first.2 s front
    · exact second.2 s back
  · exact third.2 s back

end FeedTraffic.Traffic.Visitor
