import FeedTraffic.Proofs.Openings
import FeedTraffic.Proofs.Provenance

/-!
# One requester for a session

The requester is drawn when a session begins, and no action changes it afterwards.  Every recipe
names it in each of its requests, once; only the list of users is asked for without a requester,
and two of the malformed requests leave it out on purpose.
-/

namespace FeedTraffic.User

open FeedTraffic.Feed FeedTraffic.Random

def requesterCount (r : Request) : Nat := (r.params.map Prod.fst).count requesterKey

/-- A request that names the requester and nobody else, once unless it asks for users. -/
structure Names (who : String) (r : Request) : Prop where
  same : ∀ value, (requesterKey, value) ∈ r.params → value = who
  once : r.endpoint ≠ .users → requesterCount r = 1

namespace Names

variable {who : String} {r : Request}

theorem param (h : Names who r) {name : String} (other : name ≠ requesterKey) (value : String) :
    Names who (r.param name value) where
  same := by
    intro found member
    rcases List.mem_append.mp member with old | new
    · exact h.same found old
    · simp only [List.mem_singleton, Prod.mk.injEq] at new
      exact absurd new.1.symm other
  once := by
    intro named
    have before : requesterCount r = 1 := h.once named
    simpa [requesterCount, Request.param, List.count_append, other] using before

theorem limit (h : Names who r) (n : Nat) : Names who (r.limit n) := h.param (by decide) _

theorem ignoresCursors (who : String) : Request.IgnoresCursors (Names who) := by
  rintro r name value (rfl | rfl) h
  · exact h.param (by decide) value
  · exact h.param (by decide) value

theorem asked (e : Endpoint) (who : String) (expect : Expectation) :
    Names who ⟨e, [(requesterKey, who)], expect⟩ where
  same := by simp
  once := fun _ => rfl

/-- A request about something else than the requester. -/
theorem about (e : Endpoint) {key : String} (other : key ≠ requesterKey) (subject who : String)
    (expect : Expectation) : Names who ⟨e, [(key, subject), (requesterKey, who)], expect⟩ where
  same := by
    intro value member
    simpa [other.symm] using member
  once := by
    intro _
    simp [requesterCount, other]

theorem users (who : String) : Names who ⟨.users, [], .ok⟩ where
  same := by simp
  once := fun other => absurd rfl other

end Names

/-! ## The requests of recipes -/

theorem Names.of_opening {p : String → String → Prop} {who : String} {e : Endpoint}
    {ps : List (String × String)} (opening : Opening p who e ps) : Names who ⟨e, ps, .ok⟩ := by
  cases opening with
  | users => exact Names.users who
  | asked plain => exact Names.asked e who .ok
  | about plain known _ =>
    refine Names.about e ?_ _ who .ok
    rintro rfl
    simp [requesterKey] at known
  | graph plain _ => exact (Names.asked e who .ok).param (by decide) _
  | details holds => exact Names.about .postDetails (by decide) _ who .ok

/-- Every recipe but one names the requester in all of its requests. -/
theorem requests_names (ctx : Context) (session : Session) {recipe : Recipe}
    (wellFormed : recipe ≠ .errorConditions) :
    Yields (recipe.requests ctx session) fun rs => ∀ r ∈ rs, Names ctx.requester r := by
  have limited (r : Request) (n : Nat) (_ : 1 ≤ n) (_ : n ≤ 100) (named : Names ctx.requester r) :
      Names ctx.requester (r.limit n) := named.limit n
  have opens (ps : List (String × String))
      (opening : Opening (fun _ _ => True) ctx.requester recipe.endpoint ps) :
      Names ctx.requester ⟨recipe.endpoint, ps, .ok⟩ := Names.of_opening opening
  refine (requests_keep limited (Supplies.anything ctx session) (Names.ignoresCursors _) opens
    wellFormed).mono ?_
  exact fun rs => And.right

/-- A malformed request names the requester, unless it is one of the two that are made to leave it
out. -/
theorem errorCondition_names (index : Nat) (ctx : Context) :
    (∀ value, (requesterKey, value) ∈ (Recipe.errorCondition index ctx).params →
      value = ctx.requester) ∧
    requesterCount (Recipe.errorCondition index ctx) = if index % 5 ≤ 1 then 0 else 1 := by
  have kinds : index % 5 = 0 ∨ index % 5 = 1 ∨ index % 5 = 2 ∨ index % 5 = 3 ∨ index % 5 = 4 := by
    omega
  rcases kinds with kind | kind | kind | kind | kind <;>
    simp [Recipe.errorCondition, Recipe.errorConditionCount, kind, requesterKey, requesterCount,
      Request.expectClientError, Request.limit, Request.param]

theorem errorConditions_yields (ctx : Context) (session : Session) :
    Yields (Recipe.errorConditions.requests ctx session) fun rs =>
      ∃ index < 5, rs = [Recipe.errorCondition index ctx] := by
  refine Yields.bind (between_bounds (by decide)) fun index drawn => Yields.pure ?_
  exact ⟨index, Nat.lt_of_le_of_lt drawn.2 (by decide), rfl⟩

/-- How a request of a recipe names the requester: with every parameter of that name, and once,
except for a list of users and two of the malformed requests. -/
def NamesAs (who : String) (recipe : Recipe) (r : Request) : Prop :=
  (∀ value, (requesterKey, value) ∈ r.params → value = who) ∧
  (recipe ≠ .errorConditions → r.endpoint ≠ .users → requesterCount r = 1) ∧
  (recipe = .errorConditions → ∃ index < 5, ∃ ctx, r = Recipe.errorCondition index ctx ∧
    requesterCount r = if index % 5 ≤ 1 then 0 else 1)

theorem requests_namesAs (ctx : Context) (session : Session) (recipe : Recipe) :
    Yields (recipe.requests ctx session) fun rs => ∀ r ∈ rs, NamesAs ctx.requester recipe r := by
  by_cases malformed : recipe = .errorConditions
  · subst malformed
    refine (errorConditions_yields ctx session).mono ?_
    rintro _ ⟨index, small, rfl⟩ r member
    obtain ⟨same, count⟩ := errorCondition_names index ctx
    rw [List.mem_singleton.mp member]
    exact ⟨same, fun other => absurd rfl other, fun _ => ⟨index, small, ctx, rfl, count⟩⟩
  · refine (requests_names ctx session malformed).mono ?_
    intro rs named r member
    exact ⟨(named r member).same, fun _ => (named r member).once, fun same => absurd same malformed⟩

end FeedTraffic.User

namespace FeedTraffic.Traffic.Visitor

open FeedTraffic.Feed FeedTraffic.Random FeedTraffic.Stateful FeedTraffic.User

variable {σ : Type} {kept : Samples} {s : Session} {v : Visitor σ}

/-! ## Whole visits -/

/-- What is sent for a recipe was drawn for it. -/
theorem perform_requests (known : v.session = some s) (site : Site σ) (now : Nat)
    (recipe : Recipe) :
    ∀ sent ∈ (perform site now recipe v).1, sent.request ∈ (drawn now recipe v s).1 := by
  intro sent member
  rw [perform_of_some site now recipe known] at member
  have beginning := sendAll_isPrefix site.service site.base (drawn now recipe v s).1 v.service
  exact beginning.mem (List.mem_map_of_mem member)

theorem runRecipes_namesAs (known : v.session = some s) (site : Site σ)
    (history : List (Nat × Recipe)) :
    List.Forall₂ (fun task turn => ∀ sent ∈ turn, NamesAs s.requester task.2 sent.request)
      history (runRecipes site history v).1 := by
  induction history generalizing s v with
  | nil => exact List.Forall₂.nil
  | cons task history ih =>
    obtain ⟨now, recipe⟩ := task
    rw [runRecipes_cons]
    refine List.Forall₂.cons ?_ ?_
    · intro sent member
      have asked := requests_namesAs ⟨v.store.view, s.requester, now⟩ s recipe v.words True.intro
      exact asked _ (perform_requests known site now recipe sent member)
    · have left := (Holds.perform ⟨known, rfl⟩ site now recipe).session
      have later := ih left
      rwa [Session.rememberAll_requester] at later

theorem randomPubkey_mem {samples : Samples} (filled : samples.pubkeys ≠ []) (words : Words) :
    (samples.randomPubkey words).1 ∈ samples.pubkeys :=
  randomPubkey_yields filled words True.intro

/-- The first recipe of a visitor without a session begins one. -/
theorem runRecipes_of_none (absent : v.session = none) (site : Site σ) (task : Nat × Recipe)
    (history : List (Nat × Recipe)) :
    runRecipes site (task :: history) v = runRecipes site (task :: history) (begun v) := by
  obtain ⟨now, recipe⟩ := task
  simp only [runRecipes_cons, perform_of_none site now recipe absent]

/-- The actions of a visitor who runs recipes, with or without a start of the session before. -/
def visitOf (start : Option Nat) (history : List (Nat × Recipe)) : List (Nat × Action) :=
  (start.map fun now => (now, .startSession)).toList ++
    history.map fun (now, recipe) => (now, .run recipe)

/-- How what is sent for an action names the requester. -/
def TurnNames (who : String) (action : Nat × Action) (turn : List Sent) : Prop :=
  ∀ sent ∈ turn, ∃ recipe, action.2 = .run recipe ∧ NamesAs who recipe sent.request

theorem runRecipes_turnNames (known : v.session = some s) (site : Site σ)
    (history : List (Nat × Recipe)) :
    List.Forall₂ (TurnNames s.requester) (visitOf none history) (runRecipes site history v).1 := by
  refine List.forall₂_map_left_iff.mpr ?_
  refine (runRecipes_namesAs known site history).imp ?_
  intro task turn named sent member
  exact ⟨task.2, rfl, named sent member⟩

/-- The requester after recipes is the one before them. -/
theorem runRecipes_requester (known : v.session = some s) (site : Site σ)
    (history : List (Nat × Recipe)) :
    ∃ session, (runRecipes site history v).2.session = some session ∧
      session.requester = s.requester := by
  have holds : Holds v.store.view s v := ⟨known, rfl⟩
  exact ⟨_, (holds.runRecipes site history).session, Session.rememberAll_requester s _⟩

/-- A visitor runs recipes in whatever order and at any times, after a start of its session or
without one.  The requester that the first words give stays that of the session for as long as
there is one.  It is a sample key if there are any.  Every parameter that names a requester names
this one.  Each request names it exactly once, except for lists of users and the two malformed
requests that leave it out. -/
theorem run_keeps_requester (site : Site σ) (scene : Scene σ) (start : Option Nat)
    (history : List (Nat × Recipe)) :
    let kept := scene.store.view
    let who := (kept.randomPubkey scene.words).1
    let actions := visitOf start history
    let visit := run site actions { toScene := scene }
    (kept.pubkeys ≠ [] → who ∈ kept.pubkeys) ∧
    (actions ≠ [] → ∃ session, visit.2.session = some session ∧ session.requester = who) ∧
    List.Forall₂
      (fun action turn => ∀ sent ∈ turn, ∃ recipe, action.2 = .run recipe ∧
        (∀ value, (requesterKey, value) ∈ sent.request.params → value = who) ∧
        (recipe ≠ .errorConditions → sent.request.endpoint ≠ .users →
          (sent.request.params.map Prod.fst).count requesterKey = 1) ∧
        (recipe = .errorConditions → ∃ index < 5, ∃ ctx,
          sent.request = Recipe.errorCondition index ctx ∧
          (sent.request.params.map Prod.fst).count requesterKey = if index % 5 ≤ 1 then 0 else 1))
      actions visit.1 := by
  intro kept who actions visit
  let newcomer : Visitor σ := { toScene := scene }
  have begins : (begun newcomer).session = some { requester := who } := rfl
  refine ⟨fun filled => randomPubkey_mem filled scene.words, ?_⟩
  cases start with
  | some now =>
    -- the start comes first and sends nothing
    have first : act site now .startSession newcomer = ([], begun newcomer) := by
      rw [act, bind_apply, beginSession_apply]
      rfl
    have split : visit = _ := run_cons site now .startSession _ newcomer
    rw [first] at split
    rw [split]
    refine ⟨fun _ => runRecipes_requester begins site history, ?_⟩
    refine List.Forall₂.cons ?_ (runRecipes_turnNames begins site history)
    exact fun sent member => absurd member List.not_mem_nil
  | none =>
    cases history with
    | nil => exact ⟨fun filled => absurd rfl filled, List.Forall₂.nil⟩
    | cons task history =>
      -- the first recipe begins the session
      have same : visit = runRecipes site (task :: history) (begun newcomer) :=
        runRecipes_of_none rfl site task history
      rw [same]
      refine ⟨fun _ => runRecipes_requester begins site (task :: history), ?_⟩
      exact runRecipes_turnNames begins site (task :: history)

end FeedTraffic.Traffic.Visitor
