import FeedTraffic.Proofs.Requesters

/-!
# Requests follow the table

Whatever is drawn, every request follows its entry in the table of the recipes: it goes to the
endpoint of the entry, has the parameters of the entry and expects what the entry expects.  This is
seen first of an opening, which has neither a limit nor a cursor.  A limit is a parameter that was
not there, and so is a cursor, so that each of them keeps the names of the parameters apart.
-/

namespace FeedTraffic.User

open FeedTraffic.Feed FeedTraffic.Random

def paramNames (r : Request) : List String := r.params.map Prod.fst

@[simp]
theorem paramNames_param (r : Request) (name value : String) :
    paramNames (r.param name value) = paramNames r ++ [name] := List.map_append

def implicitNames : List String := [requesterKey, "before", "after"]

def Entry.names (entry : Entry) : List String :=
  entry.subjects ++ if entry.limits.isSome then ["limit"] else []

/-- A request has a limit that is allowed, or none if there are no limits. -/
def HasLimit (r : Request) : Option Limits → Prop
  | none => "limit" ∉ paramNames r
  | some l => ∃ n, l.Allows n ∧ ("limit", toString n) ∈ r.params

/-- A request has no cursors but those of a paging. -/
def HasCursors (now : Nat) (r : Request) : Paging → Prop
  | .none => "before" ∉ paramNames r ∧ "after" ∉ paramNames r
  | .back => "after" ∉ paramNames r
  | .full => ¬("before" ∈ paramNames r ∧ "after" ∈ paramNames r)
  | .fixed offset => ("before", toString (now - offset)) ∈ r.params ∧ "after" ∉ paramNames r

/-- A request is as its entry in the table says. -/
structure Follows (now : Nat) (entry : Entry) (r : Request) : Prop where
  endpoint : r.endpoint = entry.endpoint
  expect : r.expect = entry.expect
  distinct : (paramNames r).Nodup
  named : (paramNames r).filter (· ∉ implicitNames) = entry.names
  limit : HasLimit r entry.limits
  cursors : HasCursors now r entry.paging

/-! ## Openings, limits and cursors -/

section Steps

variable {now : Nat} {entry : Entry} {r : Request}

/-- The names of the parameters with which requests open, the malformed ones among them. -/
def openingNames : List (List String) :=
  [[], [requesterKey], ["user"], ["user", requesterKey], ["post", requesterKey],
   [requesterKey, "userPubkey"], ["id", requesterKey]]

theorem Opening.names_mem {p : String → String → Prop} {who : String} {e : Endpoint}
    {ps : List (String × String)} (opening : Opening p who e ps) :
    ps.map Prod.fst ∈ openingNames := by
  cases opening with
  | users => simp [openingNames]
  | asked _ => simp [openingNames]
  | about _ known _ =>
    rcases List.mem_pair.mp known with rfl | rfl
    · simp [openingNames]
    · simp [openingNames]
  | graph _ _ => simp [openingNames]
  | details _ => simp [openingNames]

/-- An opening names nothing twice, and neither a limit nor a cursor. -/
theorem openingNames_apart : ∀ names ∈ openingNames,
    names.Nodup ∧ ∀ name ∈ ["limit", "before", "after"], name ∉ names := by decide

/-- An opening follows an entry that has no more than its subjects. -/
theorem follows_opening (entry : Entry) {ps : List (String × String)}
    (opens : ps.map Prod.fst ∈ openingNames)
    (subjects : (ps.map Prod.fst).filter (· ≠ requesterKey) = entry.subjects) :
    Follows now { entry with limits := none, paging := .none }
      ⟨entry.endpoint, ps, entry.expect⟩ := by
  obtain ⟨distinct, apart⟩ := openingNames_apart _ opens
  refine ⟨rfl, rfl, distinct, ?_, apart _ (by decide), apart _ (by decide), apart _ (by decide)⟩
  refine Eq.trans (List.filter_congr fun name listed => ?_)
    (subjects.trans (List.append_nil _).symm)
  have before : name ≠ "before" := fun same => apart "before" (by decide) (same ▸ listed)
  have after : name ≠ "after" := fun same => apart "after" (by decide) (same ▸ listed)
  simp [implicitNames, before, after]

/-- A parameter that was not there keeps the names apart. -/
theorem nodup_param (distinct : (paramNames r).Nodup) {name : String} (fresh : name ∉ paramNames r)
    (value : String) : (paramNames (r.param name value)).Nodup := by
  rw [paramNames_param]
  refine List.nodup_append.mpr ⟨distinct, List.pairwise_singleton _ _, ?_⟩
  intro other listed _ added
  rw [List.mem_singleton.mp added]
  rintro rfl
  exact fresh listed

namespace Follows

/-- Behind a request without limit and cursor comes a limit. -/
theorem limited (h : Follows now { entry with limits := none, paging := .none } r) {l : Limits}
    {n : Nat} (allowed : l.Allows n) :
    Follows now { entry with limits := some l, paging := .none } (r.limit n) where
  endpoint := h.endpoint
  expect := h.expect
  distinct := nodup_param h.distinct h.limit _
  named := by
    have subjects : (paramNames r).filter (· ∉ implicitNames) = entry.subjects ++ [] := h.named
    rw [Request.limit, paramNames_param, List.filter_append, subjects, List.append_nil]
    rfl
  limit := ⟨n, allowed, List.mem_append_right _ (List.mem_singleton_self _)⟩
  cursors := by
    have absent : "before" ∉ paramNames r ∧ "after" ∉ paramNames r := h.cursors
    simpa [HasCursors, Request.limit] using absent

/-- Behind a request without cursor comes a cursor, which changes neither the other parameters nor
the limit. -/
theorem paged (h : Follows now { entry with paging := .none } r) {name value : String}
    (cursor : name ∈ ["before", "after"]) {mode : Paging}
    (cursors : HasCursors now (r.param name value) mode) :
    Follows now { entry with paging := mode } (r.param name value) where
  endpoint := h.endpoint
  expect := h.expect
  distinct := by
    have absent : "before" ∉ paramNames r ∧ "after" ∉ paramNames r := h.cursors
    refine nodup_param h.distinct ?_ value
    rcases List.mem_pair.mp cursor with rfl | rfl
    · exact absent.1
    · exact absent.2
  named := by
    have implicit : name ∈ implicitNames := List.mem_cons_of_mem _ cursor
    have names : (paramNames r).filter (· ∉ implicitNames) = entry.names := h.named
    rw [paramNames_param, List.filter_append, names]
    simp [implicit, Entry.names]
  limit := by
    have old : HasLimit r entry.limits := h.limit
    cases limits : entry.limits with
    | none =>
      rw [limits] at old
      have other : name ≠ "limit" := fun same => absurd (same ▸ cursor) (by decide)
      simpa [HasLimit, other.symm] using old
    | some l =>
      rw [limits] at old
      obtain ⟨n, allowed, here⟩ := old
      exact ⟨n, allowed, List.mem_append_left _ here⟩
  cursors := cursors

/-- Where a cursor is left to chance there may be none. -/
theorem unpaged (h : Follows now { entry with paging := .none } r) {mode : Paging}
    (cursors : HasCursors now r mode) : Follows now { entry with paging := mode } r where
  endpoint := h.endpoint
  expect := h.expect
  distinct := h.distinct
  named := h.named
  limit := h.limit
  cursors := cursors

end Follows

theorem Limited.follows (h : Follows now { entry with limits := none, paging := .none } r)
    {limits : Option Limits} {r' : Request} (limited : Limited limits r r') :
    Follows now { entry with limits := limits, paging := .none } r' := by
  cases limits with
  | none =>
    rw [show r' = r from limited]
    exact h
  | some l =>
    obtain ⟨n, allowed, rfl⟩ := limited
    exact h.limited allowed

theorem Paged.follows (h : Follows now { entry with paging := .none } r) {mode : Paging}
    {r' : Request} (paged : Paged now mode r r') :
    Follows now { entry with paging := mode } r' := by
  obtain ⟨noBefore, noAfter⟩ : "before" ∉ paramNames r ∧ "after" ∉ paramNames r := h.cursors
  have onlyBefore (value : String) : "after" ∉ paramNames (r.param "before" value) := by
    simpa using noAfter
  have onlyAfter (value : String) : "before" ∉ paramNames (r.param "after" value) := by
    simpa using noBefore
  cases mode with
  | none =>
    rw [show r' = r from paged]
    exact h
  | back =>
    rcases paged with rfl | ⟨value, rfl⟩
    · exact h.unpaged noAfter
    · exact h.paged (by decide) (onlyBefore value)
  | full =>
    rcases paged with rfl | ⟨value, rfl⟩ | ⟨value, rfl⟩
    · exact h.unpaged fun both => noAfter both.2
    · exact h.paged (by decide) fun both => onlyBefore value both.2
    · exact h.paged (by decide) fun both => onlyAfter value both.1
  | fixed offset =>
    rw [show r' = _ from paged]
    refine h.paged (by decide) ⟨?_, onlyBefore _⟩
    exact List.mem_append_right _ (List.mem_singleton_self _)

/-- A request that is put together as its entry says follows the entry. -/
theorem Built.follows {p : String → String → Prop} {ctx : Context} (built : Built p ctx entry r) :
    Follows ctx.now entry r := by
  obtain ⟨ps, limited, opens, limits, pages⟩ := built
  have opening : Follows ctx.now { entry with limits := none, paging := .none }
      ⟨entry.endpoint, ps, entry.expect⟩ :=
    follows_opening entry opens.opening.names_mem opens.subjects
  exact Paged.follows (Limited.follows opening limits) pages

end Steps

/-! ## The requests of recipes -/

theorem errorCondition_mod (index : Nat) (ctx : Context) :
    Recipe.errorCondition (index % 5) ctx = Recipe.errorCondition index ctx := by
  simp only [Recipe.errorCondition, Recipe.errorConditionCount, Nat.mod_mod]

/-- Each malformed request follows its alternative. -/
theorem errorCondition_follows (index : Nat) (ctx : Context) :
    ∃ entry, Recipe.errorConditions.entries[index % 5]? = some entry ∧
      Follows ctx.now entry (Recipe.errorCondition index ctx) := by
  have kinds : index % 5 = 0 ∨ index % 5 = 1 ∨ index % 5 = 2 ∨ index % 5 = 3 ∨ index % 5 = 4 := by
    omega
  rw [← errorCondition_mod]
  let user := ctx.samples.firstPubkey
  have opening {e : Endpoint} {ps : List (String × String)} {subjects : List String}
      (opens : ps.map Prod.fst ∈ openingNames)
      (about : (ps.map Prod.fst).filter (· ≠ requesterKey) = subjects) :
      Follows ctx.now { endpoint := e, subjects := subjects, expect := .clientError }
        ⟨e, ps, .clientError⟩ :=
    follows_opening { endpoint := e, subjects := subjects, expect := .clientError } opens about
  have anonymous : [("user", user)].map Prod.fst ∈ openingNames := by simp [openingNames]
  have details :
      [("id", "invalid_post_id"), (requesterKey, ctx.requester)].map Prod.fst ∈ openingNames := by
    simp [openingNames]
  have outOfRange (n : Nat) : Follows ctx.now
      { endpoint := .posts, subjects := ["user"], limits := some (.oneOf [n]),
        expect := .clientError }
      (Request.limit ⟨.posts, [("user", user), (requesterKey, ctx.requester)], .clientError⟩
        n) := by
    let entry : Entry := { endpoint := .posts, subjects := ["user"], expect := .clientError }
    have posts : Follows ctx.now { entry with limits := none, paging := .none }
        ⟨.posts, [("user", user), (requesterKey, ctx.requester)], .clientError⟩ :=
      follows_opening entry (by simp [openingNames]) rfl
    exact posts.limited (List.mem_singleton_self n)
  rcases kinds with kind | kind | kind | kind | kind <;> rw [kind]
  · exact ⟨_, rfl, opening anonymous rfl⟩
  · exact ⟨_, rfl, opening anonymous rfl⟩
  · exact ⟨_, rfl, outOfRange 0⟩
  · exact ⟨_, rfl, outOfRange 150⟩
  · exact ⟨_, rfl, opening details rfl⟩

/-- Whatever the words, the samples, the requester, the session and the clock are, the requests of a
recipe follow its entries in the table, one request for each entry in order.  A malformed request
follows one of the five alternatives; each of them is met by the request that has its number. -/
theorem requests_follow_entries (ctx : Context) (session : Session) (words : Words) :
    (∀ recipe : Recipe, recipe ≠ .errorConditions →
      List.Forall₂ (Follows ctx.now) recipe.entries (recipe.requests ctx session words).1) ∧
    (∃ entry ∈ Recipe.errorConditions.entries, ∃ r,
      (Recipe.errorConditions.requests ctx session words).1 = [r] ∧ Follows ctx.now entry r) ∧
    ∀ index, ∃ entry, Recipe.errorConditions.entries[index % 5]? = some entry ∧
      Follows ctx.now entry (Recipe.errorCondition index ctx) := by
  refine ⟨fun recipe wellFormed => ?_, ?_, fun index => errorCondition_follows index ctx⟩
  · have built := requests_built (Supplies.anything ctx session) wellFormed words True.intro
    exact built.imp fun entry r holds => holds.follows
  · obtain ⟨index, -, drawn⟩ := errorConditions_yields ctx session words True.intro
    obtain ⟨entry, listed, follows⟩ := errorCondition_follows index ctx
    exact ⟨entry, List.mem_of_getElem? listed, _, drawn, follows⟩

end FeedTraffic.User
