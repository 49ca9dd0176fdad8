import FeedTraffic.Proofs.Requesters

/-!
# Parameters from the samples

Samples pass their check if both lists have entries and all identifiers are hexadecimal; otherwise
the check names what is wrong first.  With samples that pass, nothing is ever drawn from an empty
list, so every parameter that names a user or a post is one of the samples, or a post that the
session remembers.  Only the malformed request for a post makes up an identifier.
-/

namespace FeedTraffic.Feed.Samples

/-! ## The check -/

/-- A text of hexadecimal digits, at least one. -/
def IsIdentifier (s : String) : Prop :=
  s ≠ "" ∧ ∀ c ∈ s.toList, ('0' ≤ c ∧ c ≤ '9') ∨ ('a' ≤ c ∧ c ≤ 'f') ∨ ('A' ≤ c ∧ c ≤ 'F')

theorem isHex_iff (s : String) : isHex s = true ↔ IsIdentifier s := by
  simp only [isHex, IsIdentifier, Bool.and_eq_true, Bool.not_eq_true', List.all_eq_true,
    Text.Hex.isDigit_iff, ne_eq, and_congr_left_iff]
  intro _
  rw [← Bool.not_eq_true, String.isEmpty_iff]

/-- The first that is no identifier, where the keys come before the posts and the fallback comes
last. -/
def FirstOffender (s : Samples) (id : String) : Prop :=
  ∃ before after, s.pubkeys ++ s.postIds ++ [s.fallbackPostId] = before ++ id :: after ∧
    (∀ x ∈ before, IsIdentifier x) ∧ ¬IsIdentifier id

/-- What there is to be found about samples. -/
def Finds (s : Samples) : Except Fault Unit → Prop
  | .ok () => s.pubkeys ≠ [] ∧ s.postIds ≠ [] ∧
      ∀ id ∈ s.pubkeys ++ s.postIds ++ [s.fallbackPostId], IsIdentifier id
  | .error .noPubkeys => s.pubkeys = []
  | .error .noPostIds => s.pubkeys ≠ [] ∧ s.postIds = []
  | .error (.notHex id) => s.pubkeys ≠ [] ∧ s.postIds ≠ [] ∧ s.FirstOffender id

theorem find?_eq_some_iff_firstOffender (s : Samples) (id : String) :
    s.identifiers.find? (!isHex ·) = some id ↔ s.FirstOffender id := by
  simp only [List.find?_eq_some_iff_append, FirstOffender, identifiers, ← isHex_iff,
    Bool.not_eq_true', Bool.not_eq_true, Bool.not_not]
  constructor
  · rintro ⟨offends, before, after, split, sound⟩
    exact ⟨before, after, split, sound, offends⟩
  · rintro ⟨before, after, split, sound, offends⟩
    exact ⟨offends, before, after, split, sound⟩

theorem find?_eq_none_iff_identifiers (s : Samples) :
    s.identifiers.find? (!isHex ·) = none ↔
      ∀ id ∈ s.pubkeys ++ s.postIds ++ [s.fallbackPostId], IsIdentifier id := by
  simp only [List.find?_eq_none, identifiers, ← isHex_iff, Bool.not_eq_true', Bool.not_eq_false]

/-- The check gives what there is to be found, and nothing else. -/
theorem validate_eq_iff (s : Samples) (outcome : Except Fault Unit) :
    s.validate = outcome ↔ s.Finds outcome := by
  by_cases keys : s.pubkeys = []
  · have found : s.validate = .error .noPubkeys := by simp [validate, keys]
    rw [found]
    rcases outcome with (_ | _ | id) | _ <;> simp [Finds, keys]
  by_cases posts : s.postIds = []
  · have found : s.validate = .error .noPostIds := by simp [validate, keys, posts]
    rw [found]
    rcases outcome with (_ | _ | id) | _ <;> simp [Finds, keys, posts]
  have offender := s.find?_eq_some_iff_firstOffender
  have sound := s.find?_eq_none_iff_identifiers
  simp only [validate, List.isEmpty_iff, keys, posts, if_false]
  cases first : s.identifiers.find? (!isHex ·) with
  | none =>
    rw [first] at sound
    rcases outcome with (_ | _ | id) | _
    · simp [Finds, keys]
    · simp [Finds, posts]
    · have no_offender : ¬s.FirstOffender id := by
        rw [← offender, first]
        exact nofun
      simp [Finds, no_offender]
    · exact iff_of_true rfl ⟨keys, posts, sound.mp rfl⟩
  | some id =>
    rw [first] at sound
    rcases outcome with (_ | _ | other) | _
    · simp [Finds, keys]
    · simp [Finds, posts]
    · rw [Finds, ← offender, first]
      simp [keys, posts]
    · have unsound := mt sound.mpr nofun
      simp only [Finds, unsound, and_false, reduceCtorEq]

end FeedTraffic.Feed.Samples

namespace FeedTraffic.User

open FeedTraffic.Feed FeedTraffic.Random

/-! ## Requests from samples -/

/-- Every user and every post that a request names is one of the samples; the post that is looked
up may also be one of some others, or the made-up one of the malformed requests. -/
structure FromSamples (samples : Samples) (posts : List String) (r : Request) : Prop where
  users : ∀ name ∈ ["user", "userPubkey", requesterKey], ∀ value, (name, value) ∈ r.params →
    value ∈ samples.pubkeys
  post : ∀ value, ("post", value) ∈ r.params → value ∈ samples.postIds
  id : ∀ value, ("id", value) ∈ r.params →
    value ∈ samples.postIds ∨ value = samples.fallbackPostId ∨ value ∈ posts ∨
      value = "invalid_post_id" ∧ r.expect = .clientError

/-- Where the value of a parameter has to come from, by the name of the parameter. -/
def IsSampled (samples : Samples) (posts : List String) (name value : String) : Prop :=
  (name ∈ ["user", "userPubkey", requesterKey] → value ∈ samples.pubkeys) ∧
  (name = "post" → value ∈ samples.postIds) ∧
  (name = "id" → value ∈ samples.postIds ∨ value = samples.fallbackPostId ∨ value ∈ posts)

section Requests

variable {samples : Samples} {posts : List String} {r : Request}

namespace IsSampled

variable {value : String}

theorem user (listed : value ∈ samples.pubkeys) {name : String} (no_post : name ≠ "post")
    (no_id : name ≠ "id") : IsSampled samples posts name value :=
  ⟨fun _ => listed, fun same => absurd same no_post, fun same => absurd same no_id⟩

theorem post (listed : value ∈ samples.postIds) : IsSampled samples posts "post" value :=
  ⟨fun known => absurd known (by decide), fun _ => listed, nofun⟩

theorem id (known : value ∈ samples.postIds ∨ value = samples.fallbackPostId ∨ value ∈ posts) :
    IsSampled samples posts "id" value :=
  ⟨fun known => absurd known (by decide), nofun, fun _ => known⟩

/-- A parameter that names neither a user nor a post. -/
theorem other {name : String}
    (free : name ∉ ["user", "userPubkey", requesterKey, "post", "id"]) :
    IsSampled samples posts name value := by
  refine ⟨fun known => absurd (List.mem_append_left ["post", "id"] known) free, ?_, ?_⟩ <;>
    rintro rfl <;> simp at free

end IsSampled

/-- Draws from samples that pass the check supply requests with samples. -/
theorem supplies_isSampled {session : Session} {now : Nat} (keys : samples.pubkeys ≠ [])
    (ids : samples.postIds ≠ []) (listed : session.requester ∈ samples.pubkeys) :
    Supplies (IsSampled samples session.posts) ⟨samples, session.requester, now⟩ session where
  users := by
    refine (randomPubkey_yields keys).mono fun user member => ?_
    exact ⟨.user member (by decide) (by decide), .user member (by decide) (by decide)⟩
  posts := (randomPostId_yields ids).mono fun post member => ⟨.post member, .id (Or.inl member)⟩
  remembered := by
    refine (session.pickPost_yields samples.fallbackPostId).mono fun id drawn => ?_
    by_cases filled : session.posts = []
    · exact .id (Or.inr (Or.inl (drawn.2 filled)))
    · exact .id (Or.inr (Or.inr (drawn.1 filled)))
  requester := .user listed (by decide) (by decide)

/-- A request whose every parameter comes from where it has to. -/
def AllSampled (samples : Samples) (posts : List String) (r : Request) : Prop :=
  ∀ p ∈ r.params, IsSampled samples posts p.1 p.2

namespace AllSampled

theorem param (h : AllSampled samples posts r) {name value : String}
    (new : IsSampled samples posts name value) :
    AllSampled samples posts (r.param name value) := by
  intro p member
  rcases List.mem_append.mp member with old | last
  · exact h p old
  · rwa [List.mem_singleton.mp last]

theorem limit (h : AllSampled samples posts r) (n : Nat) :
    AllSampled samples posts (r.limit n) := h.param (.other (by decide))

theorem ignoresCursors : Request.IgnoresCursors (AllSampled samples posts) := by
  rintro r name value (rfl | rfl) h
  · exact h.param (.other (by decide))
  · exact h.param (.other (by decide))

theorem of_opening {who : String} (listed : who ∈ samples.pubkeys) {e : Endpoint}
    {ps : List (String × String)} (opening : Opening (IsSampled samples posts) who e ps) :
    AllSampled samples posts ⟨e, ps, .ok⟩ := by
  have named : IsSampled samples posts requesterKey who := .user listed (by decide) (by decide)
  have none_yet : AllSampled samples posts ⟨e, [], .ok⟩ := nofun
  cases opening with
  | users => exact none_yet
  | asked plain => exact none_yet.param named
  | about plain known holds => exact (none_yet.param holds).param named
  | graph plain holds => exact (none_yet.param named).param holds
  | details holds => exact (none_yet.param holds).param named

theorem fromSamples (h : AllSampled samples posts r) : FromSamples samples posts r where
  users name known value member := (h (name, value) member).1 known
  post value member := (h ("post", value) member).2.1 rfl
  id value member := by
    rcases (h ("id", value) member).2.2 rfl with listed | fallback | remembered
    · exact Or.inl listed
    · exact Or.inr (Or.inl fallback)
    · exact Or.inr (Or.inr (Or.inl remembered))

end AllSampled

/-- The malformed requests are about the first user, and the one that looks up a post says that it
expects to be refused. -/
theorem errorCondition_fromSamples (ctx : Context) (keys : ctx.samples.pubkeys ≠ [])
    (listed : ctx.requester ∈ ctx.samples.pubkeys) (index : Nat) :
    FromSamples ctx.samples posts (Recipe.errorCondition index ctx) := by
  have first : ctx.samples.firstPubkey ∈ ctx.samples.pubkeys := by
    obtain ⟨key, rest, entries⟩ := List.exists_cons_of_ne_nil keys
    rw [Samples.firstPubkey, entries]
    exact List.mem_cons_self
  have user : IsSampled ctx.samples posts "user" ctx.samples.firstPubkey :=
    .user first (by decide) (by decide)
  have named : IsSampled ctx.samples posts requesterKey ctx.requester :=
    .user listed (by decide) (by decide)
  have none_yet (e : Endpoint) : AllSampled ctx.samples posts ⟨e, [], .clientError⟩ := nofun
  have kinds : index % 5 = 0 ∨ index % 5 = 1 ∨ index % 5 = 2 ∨ index % 5 = 3 ∨ index % 5 = 4 := by
    omega
  rcases kinds with kind | kind | kind | kind | kind <;>
    simp only [Recipe.errorCondition, Recipe.errorConditionCount, kind]
  · exact ((none_yet .posts).param user).fromSamples
  · exact ((none_yet .mentions).param user).fromSamples
  · exact ((((none_yet .posts).param user).param named).limit 0).fromSamples
  · exact ((((none_yet .posts).param user).param named).limit 150).fromSamples
  · refine ⟨?_, ?_, ?_⟩ <;> simp [Request.expectClientError, requesterKey, listed]

/-- Whatever is drawn for a session whose requester is one of the samples comes from the samples. -/
theorem requests_fromSamples {session : Session} {now : Nat} (keys : samples.pubkeys ≠ [])
    (ids : samples.postIds ≠ []) (listed : session.requester ∈ samples.pubkeys) (recipe : Recipe) :
    Yields (recipe.requests ⟨samples, session.requester, now⟩ session) fun rs =>
      ∀ r ∈ rs, FromSamples samples session.posts r := by
  by_cases malformed : recipe = .errorConditions
  · subst malformed
    refine (errorConditions_yields ⟨samples, session.requester, now⟩ session).mono ?_
    rintro _ ⟨index, -, rfl⟩ r member
    rw [List.mem_singleton.mp member]
    exact errorCondition_fromSamples ⟨samples, session.requester, now⟩ keys listed index
  · have limited (r : Request) (n : Nat) (_ : 1 ≤ n) (_ : n ≤ 100)
        (sampled : AllSampled samples session.posts r) :
        AllSampled samples session.posts (r.limit n) := sampled.limit n
    refine (requests_keep limited (supplies_isSampled keys ids listed) AllSampled.ignoresCursors
      (fun ps opening => AllSampled.of_opening listed opening) malformed).mono ?_
    rintro rs ⟨-, sampled⟩ r member
    exact (sampled r member).fromSamples

end Requests

/-- The check of samples finds exactly what there is to be found.  If it finds nothing, a session
that begins with the samples acts as one of their users.  Whatever posts it remembers later,
whatever the words and the time are, every recipe then names only users and posts of the samples,
or such a post; an identifier that is made up stands only in a request that expects to be
refused. -/
theorem requests_of_checked_samples (samples : Samples) :
    (∀ outcome, samples.validate = outcome ↔ samples.Finds outcome) ∧
    (samples.validate = .ok () → ∀ (first words : Words) (posts : List String) (now : Nat),
      let session : Session := { (Session.start samples first).1 with posts }
      let ctx : Context := ⟨samples, session.requester, now⟩
      session.requester ∈ samples.pubkeys ∧
      (∀ recipe : Recipe, ∀ r ∈ (recipe.requests ctx session words).1,
        FromSamples samples posts r) ∧
      ∀ index, FromSamples samples posts (Recipe.errorCondition index ctx)) := by
  refine ⟨samples.validate_eq_iff, ?_⟩
  intro checked first words posts now session ctx
  obtain ⟨keys, ids, -⟩ := (samples.validate_eq_iff _).mp checked
  have listed : session.requester ∈ samples.pubkeys :=
    randomPubkey_yields keys first True.intro
  refine ⟨listed, fun recipe => ?_, errorCondition_fromSamples ctx keys listed⟩
  exact requests_fromSamples keys ids listed recipe words True.intro

/-- A session that remembers an odd post looks up that post or one of the samples. -/
theorem requests_of_checked_samples_odd_post :
    let samples : Samples := { pubkeys := ["02aa"], postIds := ["ff00"], fallbackPostId := "cc22" }
    let session : Session :=
      { (Session.start samples (.cyclic [])).1 with posts := ["a&b=c", ""] }
    samples.validate = .ok () ∧
      ∀ r ∈ (Recipe.viewPostDetails.requests ⟨samples, session.requester, 20000⟩ session
        (.cyclic [0x9000000000000000])).1, FromSamples samples ["a&b=c", ""] r := by
  intro samples session
  have checked : samples.validate = .ok () := by decide +kernel
  obtain ⟨-, sampled, -⟩ := (requests_of_checked_samples samples).2 checked (.cyclic [])
    (.cyclic [0x9000000000000000]) ["a&b=c", ""] 20000
  exact ⟨checked, sampled .viewPostDetails⟩

end FeedTraffic.User
