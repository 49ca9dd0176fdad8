import FeedTraffic.Proofs.Answers

/-!
# What requests expect, and what the rules make of them

Every request of a recipe says whether it expects to be answered or to be refused.  The rules of
the mock feed know nothing of that, and still agree with it, whatever the samples, the session and
the random words are.  Only the details of a post depend on more: there the identifier decides.
-/

namespace FeedTraffic.Mock

open FeedTraffic.Feed FeedTraffic.Http FeedTraffic.Random FeedTraffic.User

/-- A text of 64 hexadecimal digits. -/
def IsContentId (id : String) : Prop :=
  id.toList.length = 64 ∧
    ∀ c ∈ id.toList, ('0' ≤ c ∧ c ≤ '9') ∨ ('a' ≤ c ∧ c ≤ 'f') ∨ ('A' ≤ c ∧ c ≤ 'F')

theorem isPostId_iff (id : String) : isPostId id = true ↔ IsContentId id := by
  simp only [isPostId, IsContentId, Bool.and_eq_true, beq_iff_eq, List.all_eq_true,
    Text.Hex.isDigit_iff]

/-- The answer to a request that breaks a rule. -/
theorem status_of_refusal {r : Request} {refusal : Refusal}
    (refused : respond r.endpoint.path r.params = .error refusal) :
    (Server.reception r).status = 400 := by
  simp only [Server.reception, Server.answer, refused]
  rfl

/-- The rules treat a request the way it expects.  If it expects to be answered and asks for the
details of a post, it is answered when its identifier is one and refused when it is not. -/
structure Agreed (r : Request) : Prop where
  malformed : r.expect = .clientError →
    (Server.reception r).status = 400 ∧
      ∃ refusal, respond r.endpoint.path r.params = .error refusal
  wellFormed : r.expect = .ok → r.endpoint ≠ .postDetails →
    ∃ body, respond r.endpoint.path r.params = .ok body
  details : r.expect = .ok → r.endpoint = .postDetails →
    ∃ id, Params.get? r.params "id" = some id ∧
      (IsContentId id → respond r.endpoint.path r.params = .ok (postDetails id)) ∧
      (¬IsContentId id → respond r.endpoint.path r.params = .error .postId)

theorem Made.agreed {p : String → Prop} {r : Request} (h : Made p r) : Agreed r := by
  cases h with
  | proper h =>
    refine ⟨fun other => ?_, fun _ => h.respond_other, fun _ details => ?_⟩
    · rw [h.expects] at other
      cases other
    · obtain ⟨id, found, -, answered⟩ := h.respond_details details
      refine ⟨id, found, ?_, ?_⟩
      · intro isId
        exact answered.trans (if_pos ((isPostId_iff id).mpr isId))
      · intro no_id
        exact answered.trans (if_neg fun isId => no_id ((isPostId_iff id).mp isId))
  | malformed on_feed refusal refused =>
    exact ⟨fun _ => ⟨status_of_refusal refused, refusal, refused⟩, nofun, nofun⟩

/-- Nothing is asked of the samples, the requester, the clock, the session or the words.  Every
recipe gives as many requests as it should and the rules treat each of them the way it expects;
so they do with every malformed request by its number, which always expects to be refused. -/
theorem rules_meet_expectations (ctx : Context) (session : Session) (words : Words) :
    (∀ recipe : Recipe,
      let requests := (recipe.requests ctx session words).1
      requests.length = requestCount recipe ∧ ∀ r ∈ requests, Agreed r) ∧
    ∀ index, (Recipe.errorCondition index ctx).expect = .clientError ∧
      Agreed (Recipe.errorCondition index ctx) := by
  constructor
  · intro recipe
    have anything (d : Draw String) : Yields d fun _ => True := Yields.trivial d
    obtain ⟨length, made⟩ :=
      requests_made (anything _) (anything (session.pickPost _)) recipe words True.intro
    exact ⟨length, fun r member => (made r member).agreed⟩
  · intro index
    exact ⟨rfl, (errorCondition_made (fun _ => True) index ctx).agreed⟩

end FeedTraffic.Mock
