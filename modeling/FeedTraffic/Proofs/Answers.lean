import FeedTraffic.Mock.Server
import FeedTraffic.Proofs.Form
import FeedTraffic.Proofs.Measuring
import FeedTraffic.Proofs.Requests

/-!
# Answers of the mock feed

A request to the mock arrives with the parameters that it was given, is answered at once and, if
the rules foresee it, gets the verdict that it passed.  The posts on a page of the mock have
identifiers as the rules want them, and a session reads them back.
-/

namespace FeedTraffic.Mock

open FeedTraffic.Feed FeedTraffic.Http FeedTraffic.Traffic FeedTraffic.User

/-! ## Identifiers of posts -/

theorem isDigit_digitChar : ∀ n < 16, Text.Hex.isDigit (Nat.digitChar n) = true := by
  decide

theorem isDigit_of_mem_toDigits {n : Nat} {c : Char} (member : c ∈ Nat.toDigits 16 n) :
    Text.Hex.isDigit c = true := by
  induction n using Nat.strongRecOn with
  | ind n ih =>
    rw [Nat.toDigits_eq_if (by decide)] at member
    by_cases small : n < 16
    · rw [if_pos small, List.mem_singleton] at member
      rw [member]
      exact isDigit_digitChar n small
    · rw [if_neg small, List.mem_append, List.mem_singleton] at member
      rcases member with front | last
      · exact ih (n / 16) (by omega) front
      · rw [last]
        exact isDigit_digitChar (n % 16) (Nat.mod_lt _ (by decide))

/-- The identifier of a post is one, as long as its number has no more than 64 digits. -/
theorem isPostId_postId {n : Nat} (small : n < 16 ^ 64) : isPostId (postId n) = true := by
  have fits : (Nat.toDigits 16 n).length ≤ 64 :=
    (Nat.length_toDigits_le_iff (by decide) (by decide)).mpr small
  have length : (Text.Hex.padded 64 n).length = 64 := by
    simp only [Text.Hex.padded, List.length_append, List.length_replicate]
    omega
  have digits : (Text.Hex.padded 64 n).all Text.Hex.isDigit = true := by
    rw [List.all_eq_true]
    intro c member
    rcases List.mem_append.mp member with filling | digit
    · rw [List.eq_of_mem_replicate filling]
      rfl
    · exact isDigit_of_mem_toDigits digit
  rw [isPostId, postId, String.toList_ofList, length, digits]
  rfl

namespace Server

/-! ## One request -/

theorem answer_location (s : Server) (path : String) (ps : Params) :
    (s.answer path ps).location = none := by
  rw [answer]
  split
  · rfl
  · rfl
  · split <;> rfl

theorem handle_feed {path : String} (on_feed : path ∈ feedPaths) (ps : Params) (s : Server) :
    handle path ps s = (s.answer path ps, { s with counts := bump path s.counts }) := by
  have no_health : path ≠ "/health" := by
    rintro rfl
    revert on_feed
    decide +kernel
  have contained : feedPaths.contains path = true := List.contains_iff_mem.mpr on_feed
  simp only [handle, bind, StateT.bind, get, getThe, MonadStateOf.get, StateT.get, no_health,
    contained, if_false, if_true]
  rfl

theorem path_mem_feedPaths {e : Endpoint} (on_feed : e ≠ .health) : e.path ∈ feedPaths := by
  revert on_feed
  cases e <;> decide +kernel

/-- The parameters of an address are read as they were written. -/
theorem decode_address (base : Url) (r : Request) :
    Form.decode ((Traffic.address base r).query.getD "") = r.params := by
  cases params : r.params with
  | nil => simp only [Traffic.address, params]; rfl
  | cons p ps =>
    simp only [Traffic.address, params, List.isEmpty_cons]
    exact Form.decode_encode (p :: ps)

theorem service_address {r : Request} (on_feed : r.endpoint ≠ .health) (base : Url) (s : Server) :
    service (Traffic.address base r).withoutUser s =
      (.ok (s.answer r.endpoint.path r.params),
        { s with counts := bump r.endpoint.path s.counts }) := by
  have params : Form.decode ((Traffic.address base r).withoutUser.query.getD "") = r.params :=
    decode_address base r
  have handled := handle_feed (path_mem_feedPaths on_feed) r.params s
  have path : (Traffic.address base r).withoutUser.path = r.endpoint.path := rfl
  simp only [service, bind, StateT.bind, params, path, handled]
  rfl

/-- The mock answers a request to the feed at once, without a redirect. -/
theorem exchange_mock {r : Request} (on_feed : r.endpoint ≠ .health) (base : Url) (s : Server) :
    exchange service (Traffic.address base r) s =
      (.answered (s.answer r.endpoint.path r.params),
        { s with counts := bump r.endpoint.path s.counts }) := by
  have served := service_address on_feed base s
  have stays : (s.answer r.endpoint.path r.params).next?
      (Traffic.address base r).withoutUser = none := by
    rw [Response.next?, answer_location]
    split <;> rfl
  simp only [exchange, maxRequests, follow, bind, StateT.bind, served, stays]
  rfl

/-- The answer to a request that no status is forced upon. -/
def reception (r : Request) : Response := answer {} r.endpoint.path r.params

theorem answer_unforced {s : Server} (unforced : s.forced = none) (r : Request) :
    s.answer r.endpoint.path r.params = reception r := by
  simp only [reception, answer, unforced]

/-- What the rules foresee gets the verdict that it passed. -/
theorem classify_reception {r : Request} (h : Foreseen r) :
    Verdict.classify (reception r).status r.expect (reception r).text = .pass := by
  cases expects : r.expect with
  | ok =>
    obtain ⟨body, answered⟩ := h.answered expects
    simp [reception, answer, answered, ofJson, Response.ofText, Verdict.classify, Verdict.accepts]
  | clientError =>
    obtain ⟨refusal, refused⟩ := h.refused expects
    simp [reception, answer, refused, ofJson, Response.ofText, Verdict.classify, Verdict.accepts]

theorem send_mock {r : Request} (on_feed : r.endpoint ≠ .health) (base : Url) {s : Server}
    (unforced : s.forced = none) :
    send service base r s =
      (.ofResponse r (reception r), { s with counts := bump r.endpoint.path s.counts }) := by
  rw [send_apply, exchange_mock on_feed, answer_unforced unforced]
  rfl

theorem outcome_reception {r : Request} (h : Foreseen r) :
    (Sent.ofResponse r (reception r)).outcome = .passed (reception r).text := by
  rw [Sent.ofResponse_of_pass (classify_reception h)]

/-- Requests that the rules foresee are all sent, and all pass. -/
theorem sendAll_mock (base : Url) {rs : List Request} (foreseen : ∀ r ∈ rs, Foreseen r)
    {s : Server} (unforced : s.forced = none) :
    (sendAll service base rs s).1 = rs.map (fun r => Sent.ofResponse r (reception r)) ∧
      (sendAll service base rs s).2.forced = none := by
  induction rs generalizing s with
  | nil => exact ⟨rfl, unforced⟩
  | cons r rs ih =>
    have now := foreseen r List.mem_cons_self
    have later : ∀ q ∈ rs, Foreseen q := fun q member => foreseen q (List.mem_cons_of_mem r member)
    have sent := send_mock now.on_feed base unforced
    have no_failure : ¬(Sent.ofResponse r (reception r)).failure?.isSome = true := by
      rw [Sent.failure?, outcome_reception now]
      exact Bool.false_ne_true
    have unforced_later : Server.forced { s with counts := bump r.endpoint.path s.counts } = none :=
      unforced
    obtain ⟨all, left⟩ := ih later unforced_later
    rw [sendAll_cons]
    simp only [sent, if_neg no_failure, all, left, List.map_cons, and_self]

/-! ## The page that is read back -/

/-- The text of a response, unless it begins with a byte order mark. -/
theorem text_ofText (status : Nat) {body : String} (no_mark : body.toList.head? ≠ some '\uFEFF') :
    (Response.ofText status body).text = body := by
  have read : Text.decodeBody (Text.Utf8.encode body.toList) = body.toList :=
    Text.Utf8.decodeBody_encode no_mark
  exact (congrArg String.ofList read).trans String.ofList_toList

theorem text_ofJson (status : Nat) (members : List (List Json.Piece × Json)) :
    (ofJson status (.object members)).text = (Json.object members).toText := by
  refine text_ofText status ?_
  rw [Json.toText, String.toList_ofList, Json.chars, List.head?_cons]
  decide

theorem page_of_no_cursors {ps : Params} (after : Params.get? ps "after" = none)
    (before : Params.get? ps "before" = none) : page ps = page [] := by
  simp only [page, cursor, after, before]
  rfl

theorem reception_browse (ctx : Context) {n : Nat} (limits : AreLimits n n) :
    reception (browse ctx n) = ofJson 200 (page []) := by
  have proper : Proper (isPostId · = true) (browse ctx n) := browse_proper ctx limits
  have answered := proper.respond_following rfl
  have no_cursor : ∀ key ∈ ["after", "before"], Params.get? (browse ctx n).params key = none := by
    intro key member
    have no_limit : key ≠ "limit" := by
      rintro rfl
      revert member
      decide
    have no_requester : requesterKey ≠ key := by
      rintro rfl
      revert member
      decide
    refine (Params.get?_append_other no_limit (toString n)).trans ?_
    simp [Params.get?, List.lookup_cons, beq_eq_false_iff_ne.mpr no_requester.symm]
  have same := page_of_no_cursors (no_cursor "after" (by decide)) (no_cursor "before" (by decide))
  simp only [reception, answer, answered, same]

/-- The page is read as the posts that were written. -/
theorem ofBody?_page :
    Page.ofBody? (page []).toText = some ⟨[some (postId 1), some (postId 2), some (postId 3)]⟩ := by
  rw [Page.ofBody?, Json.ofText?, Json.toText, String.toList_ofList]
  decide +kernel

/-- A session finds posts on a page, and all of them are identifiers. -/
theorem discoveries_page {id : String} (found : id ∈ Session.discoveries (page []).toText) :
    isPostId id = true := by
  have three : Session.discoveries (page []).toText = [postId 1, postId 2, postId 3] := by
    rw [Session.discoveries, ofBody?_page]
    rfl
  simp only [three, List.mem_cons, List.not_mem_nil, or_false] at found
  rcases found with rfl | rfl | rfl
  · exact isPostId_postId (by decide)
  · exact isPostId_postId (by decide)
  · exact isPostId_postId (by decide)

end Server

end FeedTraffic.Mock
