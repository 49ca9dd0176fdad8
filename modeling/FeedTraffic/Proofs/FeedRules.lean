import FeedTraffic.Proofs.Expectations
import FeedTraffic.Proofs.JsonWriting

/-!
# What the rules of the feed accept

Each of the three rules says something about the texts of a request: that one is there, that one
is a number, that one is an identifier.  A request that keeps all of them is answered, and any other
is refused for the first one that it breaks.  An answered page is a page whatever its cursors are,
and its posts are always the same three.
-/

namespace FeedTraffic.Mock

open FeedTraffic.Feed FeedTraffic.Http FeedTraffic.User

/-! ## The rules -/

/-- The texts of a limit: the decimals of a number between 1 and 100, with any zeros in front of
them, and a plus sign in front of those or none. -/
def IsLimitText (s : String) : Prop :=
  ∃ (sign : String) (zeros n : Nat), (sign = "" ∨ sign = "+") ∧ 1 ≤ n ∧ n ≤ 100 ∧
    s = sign ++ String.ofList (List.replicate zeros '0') ++ toString n

theorem toList_limitText (sign : String) (zeros n : Nat) :
    (sign ++ String.ofList (List.replicate zeros '0') ++ toString n).toList =
      sign.toList ++ (List.replicate zeros '0' ++ Nat.toDigits 10 n) := by
  simp

theorem isLimit_iff (s : String) : isLimit s = true ↔ IsLimitText s := by
  constructor
  · intro holds
    cases read : Number.Whole.unsigned? (2 ^ 32 - 1) s.toList with
    | none => simp [isLimit, read] at holds
    | some n =>
      have within : 1 ≤ n ∧ n ≤ maxLimit := by simpa [isLimit, read] using holds
      obtain ⟨-, sign, zeros, signs, parts⟩ :=
        (Number.Whole.unsigned?_eq_some_iff within.1).mp read
      refine ⟨String.ofList sign, zeros, n, ?_, within.1, within.2, ?_⟩
      · rcases signs with rfl | rfl
        · exact Or.inl rfl
        · exact Or.inr rfl
      · rw [← String.toList_inj, parts, toList_limitText, String.toList_ofList]
  · rintro ⟨sign, zeros, n, signs, positive, small, rfl⟩
    have word : n ≤ 2 ^ 32 - 1 := Nat.le_trans small (by decide)
    have signs : sign.toList = [] ∨ sign.toList = ['+'] := by
      rcases signs with rfl | rfl
      · exact Or.inl rfl
      · exact Or.inr rfl
    have read := (Number.Whole.unsigned?_eq_some_iff positive).mpr
      ⟨word, sign.toList, zeros, signs, toList_limitText sign zeros n⟩
    have within : n ≤ maxLimit := small
    rw [isLimit, read]
    simp only [positive, within, decide_true, Bool.and_self]

/-- Whether a request keeps the rule behind a refusal. -/
def Keeps (path : String) (ps : Params) : Refusal → Prop
  | .requester => path = "/get-users" ∨ ∃ key, ps.get? requesterKey = some key
  | .limit => ∀ text, ps.get? "limit" = some text → IsLimitText text
  | .postId => path = "/get-post-details" → ∃ id, ps.get? "id" = some id ∧ IsContentId id

/-- The rules that come before the one behind a refusal. -/
def Refusal.earlier : Refusal → List Refusal
  | .requester => []
  | .limit => [.requester]
  | .postId => [.requester, .limit]

section Rules

variable {path : String} {ps : Params}

theorem broken_requester (broken : ¬Keeps path ps .requester) :
    respond path ps = .error .requester := by
  simp only [Keeps, not_or, not_exists] at broken
  have missing : (ps.get? requesterKey).isNone = true := by
    rw [Option.isNone_iff_eq_none, Option.eq_none_iff_forall_ne_some]
    exact broken.2
  rw [respond, if_pos ⟨broken.1, missing⟩]

theorem kept_requester (kept : Keeps path ps .requester) :
    ¬(path ≠ "/get-users" ∧ (ps.get? requesterKey).isNone = true) := by
  rintro ⟨other, missing⟩
  rcases kept with users | ⟨key, present⟩
  · exact other users
  · simp [present] at missing

theorem any_limit_iff :
    (ps.get? "limit").any (!isLimit ·) = true ↔ ¬Keeps path ps .limit := by
  cases given : ps.get? "limit" with
  | none => simp [Keeps, given]
  | some text => simp [Keeps, given, ← isLimit_iff]

/-- A missing identifier counts as an empty one, which is none. -/
theorem isPostId_given_iff :
    isPostId ((ps.get? "id").getD "") = true ↔ ∃ id, ps.get? "id" = some id ∧ IsContentId id := by
  cases given : ps.get? "id" with
  | none => simp [isPostId]
  | some id => simp [isPostId_iff]

/-- Either a request keeps all rules, or there is a first one that it breaks. -/
theorem respond_cases (path : String) (ps : Params) :
    (∃ body, respond path ps = .ok body ∧ ∀ rule, Keeps path ps rule) ∨
      ∃ rule, respond path ps = .error rule ∧ ¬Keeps path ps rule ∧
        ∀ earlier ∈ rule.earlier, Keeps path ps earlier := by
  by_cases requester : Keeps path ps .requester
  swap
  · exact Or.inr ⟨.requester, broken_requester requester, requester, nofun⟩
  have named := kept_requester requester
  by_cases limit : Keeps path ps .limit
  swap
  · refine Or.inr ⟨.limit, ?_, limit, by simpa [Refusal.earlier] using requester⟩
    rw [respond, if_neg named, if_pos (any_limit_iff.mpr limit)]
  have within : ¬(ps.get? "limit").any (!isLimit ·) = true := fun some_other =>
    any_limit_iff.mp some_other limit
  by_cases postId : Keeps path ps .postId
  · refine Or.inl ?_
    have kept : ∀ rule, Keeps path ps rule := by
      rintro (_ | _ | _)
      · exact requester
      · exact limit
      · exact postId
    rw [respond, if_neg named, if_neg within]
    split
    · rename_i details
      rw [if_pos (isPostId_given_iff.mpr (postId details))]
      exact ⟨_, rfl, kept⟩
    · split
      · exact ⟨_, rfl, kept⟩
      · split
        · exact ⟨_, rfl, kept⟩
        · exact ⟨_, rfl, kept⟩
  · refine Or.inr ⟨.postId, ?_, postId, by simpa [Refusal.earlier] using ⟨requester, limit⟩⟩
    obtain ⟨details, broken⟩ := Classical.not_imp.mp postId
    rw [respond, if_neg named, if_neg within, if_pos details]
    exact if_neg fun isId => broken (isPostId_given_iff.mp isId)

/-- There is one rule at most that is the first to be broken. -/
theorem first_broken_unique {rule other : Refusal}
    (broken : ¬Keeps path ps rule) (kept : ∀ earlier ∈ rule.earlier, Keeps path ps earlier)
    (broken' : ¬Keeps path ps other)
    (kept' : ∀ earlier ∈ other.earlier, Keeps path ps earlier) : rule = other := by
  by_contra different
  have order : rule ∈ other.earlier ∨ other ∈ rule.earlier := by
    revert different
    cases rule <;> cases other <;> decide
  rcases order with before | behind
  · exact broken (kept' rule before)
  · exact broken' (kept other behind)

/-- A path of pages has no other answer than a page. -/
theorem respond_page {body : Json} (paged : path ∈ pagePaths)
    (answered : respond path ps = .ok body) : body = page ps := by
  have others : path ≠ "/get-post-details" ∧ path ≠ "/get-user-details" ∧
      path ≠ "/get-notifications-count" := by
    refine ⟨?_, ?_, ?_⟩ <;>
      · rintro rfl
        revert paged
        decide
  obtain ⟨no_details, no_user, no_count⟩ := others
  rw [respond, if_neg no_details, if_neg no_user, if_neg no_count] at answered
  split at answered
  · cases answered
  · split at answered
    · cases answered
    · exact (Except.ok.inj answered).symm

end Rules

/-! ## The page -/

theorem isPlain_ofString (s : String) : (Json.ofString s).IsPlain := by
  intro p member
  obtain ⟨c, -, rfl⟩ := List.mem_map.mp member
  exact ⟨c, rfl⟩

theorem arePlain_member (key : String) {v : Json} {ms : List (List Json.Piece × Json)}
    (plain : v.IsPlain) (others : Json.ArePlainMembers ms) :
    Json.ArePlainMembers (Json.member key v :: ms) :=
  ⟨isPlain_ofString key, plain, others⟩

theorem isPlain_cursor (ps : Params) (name : String) : (cursor ps name).IsPlain := by
  cases given : ps.get? name with
  | none => simp [cursor, given, Json.IsPlain]
  | some s =>
    rw [cursor, given]
    exact isPlain_ofString s

theorem isPlain_page (ps : Params) : (page ps).IsPlain := by
  have post (n : Nat) : (Json.object [Json.member "id" (.ofString (postId n))]).IsPlain :=
    arePlain_member "id" (isPlain_ofString _) trivial
  have no_more : Json.ArePlainMembers [Json.member "hasMore" (.bool false)] :=
    arePlain_member "hasMore" trivial trivial
  have cursors := arePlain_member "after" (isPlain_cursor ps "after")
    (arePlain_member "before" (isPlain_cursor ps "before") no_more)
  have posts : Json.ArePlainItems ((List.range postsPerPage).map fun k =>
      Json.object [Json.member "id" (.ofString (postId (k + 1)))]) :=
    ⟨post 1, post 2, post 3, trivial⟩
  exact arePlain_member "pagination" cursors (arePlain_member "posts" posts trivial)

/-- Written down, a page is one with its three posts. -/
theorem isPage_written (ps : Params) :
    IsPage [some (postId 1), some (postId 2), some (postId 3)] (page ps).written := by
  have post (n : Nat) : IsPost (some (postId n))
      (Json.object [Json.member "id" (.ofString (postId n))]).written :=
    .text (Json.spells_written _) (.known _ (Json.spells_written _) .nil)
  exact .mk (.cons (post 1) (.cons (post 2) (.cons (post 3) .nil)))
    (.other _ (by decide) (Json.spells_written _) (.known _ (Json.spells_written _) .nil))

def pageIds : List String :=
  ["0000000000000000000000000000000000000000000000000000000000000001",
   "0000000000000000000000000000000000000000000000000000000000000002",
   "0000000000000000000000000000000000000000000000000000000000000003"]

theorem pageIds_eq : pageIds = [postId 1, postId 2, postId 3] := by
  decide +kernel

/-- A page arrives as a text that a session reads those posts from, whatever its cursors are. -/
theorem remember_page (ps : Params) (s : Session) :
    s.remember (page ps).toText = (3, { s with posts := (s.posts ++ pageIds).rtake 50 }) := by
  have read : Page.ofBody? (page ps).toText =
      some ⟨[some (postId 1), some (postId 2), some (postId 3)]⟩ := by
    rw [Page.ofBody?, Json.ofText?_toText (isPlain_page ps)]
    exact Page.ofJson?_of_isPage (isPage_written ps)
  rw [Session.remember_of_page read, pageIds_eq]
  rfl

theorem answer_text {path : String} {ps : Params} (paged : path ∈ pagePaths) {body : Json}
    (answered : respond path ps = .ok body) :
    (Server.answer {} path ps).text = (page ps).toText := by
  have same : Server.answer {} path ps = Server.ofJson 200 (page ps) := by
    rw [Server.answer, answered, respond_page paged answered]
  rw [same]
  exact Server.text_ofJson 200 _

/-- A request to a path of the feed is answered if, and only if, it keeps every rule, and it is
refused for a rule if, and only if, that is the first one it breaks.  If it asks for a page and is
answered, then with a JSON text, and a session finds the same three posts there, whatever the
request's own texts are. -/
theorem answered_by_rules (path : String) (ps : Params) :
    ((∃ body, respond path ps = .ok body) ↔ ∀ rule, Keeps path ps rule) ∧
    (∀ rule, respond path ps = .error rule ↔
      ¬Keeps path ps rule ∧ ∀ earlier ∈ rule.earlier, Keeps path ps earlier) ∧
    ∀ body, path ∈ pagePaths → respond path ps = .ok body →
      let text := (Server.answer {} path ps).text
      (∃ v, Json.IsDocument v text) ∧
      ∀ s : Session, s.remember text = (3, { s with posts := (s.posts ++ pageIds).rtake 50 }) := by
  refine ⟨⟨?_, ?_⟩, fun rule => ⟨?_, ?_⟩, ?_⟩
  · rintro ⟨body, answered⟩
    obtain ⟨-, -, kept⟩ | ⟨rule, refused, -⟩ := respond_cases path ps
    · exact kept
    · cases answered.symm.trans refused
  · intro kept
    obtain ⟨body, answered, -⟩ | ⟨rule, -, broken, -⟩ := respond_cases path ps
    · exact ⟨body, answered⟩
    · exact absurd (kept rule) broken
  · intro refused
    obtain ⟨body, answered, -⟩ | ⟨first, refused', broken⟩ := respond_cases path ps
    · cases answered.symm.trans refused
    · obtain rfl : first = rule := Except.error.inj (refused'.symm.trans refused)
      exact broken
  · rintro ⟨broken, kept⟩
    obtain ⟨-, -, all⟩ | ⟨first, refused, broken', kept'⟩ := respond_cases path ps
    · exact absurd (all rule) broken
    · rw [first_broken_unique broken kept broken' kept']
      exact refused
  · intro body paged answered text
    have same : text = (page ps).toText := answer_text paged answered
    rw [same]
    exact ⟨⟨_, Json.isDocument_toText (isPlain_page ps)⟩, remember_page ps⟩

/-- An empty requester, a limit with a sign and zeros, and cursors that would end a string, an
object and a line. -/
theorem answered_by_rules_odd_cursors :
    let ps : Params :=
      [(requesterKey, ""), ("limit", "+007"), ("before", "\"\x7d]\\\x01"), ("after", "\n")]
    let s : Session := { requester := "02" }
    "/get-mentions" ∈ pagePaths ∧ (∃ body, respond "/get-mentions" ps = .ok body) ∧
      s.remember (Server.answer {} "/get-mentions" ps).text = (3, { s with posts := pageIds }) := by
  intro ps s
  obtain ⟨answered_iff, -, page⟩ := answered_by_rules "/get-mentions" ps
  have paged : "/get-mentions" ∈ pagePaths := by decide
  have kept : ∀ rule, Keeps "/get-mentions" ps rule := by
    rintro (_ | _ | _)
    · exact Or.inr ⟨"", rfl⟩
    · intro text given
      obtain rfl : "+007" = text := Option.some.inj given
      exact ⟨"+", 2, 7, Or.inr rfl, by decide, by decide, by decide⟩
    · exact fun details => absurd details (by decide)
  obtain ⟨body, answered⟩ := answered_iff.mpr kept
  exact ⟨paged, ⟨body, answered⟩, (page body paged answered).2 s⟩

end FeedTraffic.Mock
