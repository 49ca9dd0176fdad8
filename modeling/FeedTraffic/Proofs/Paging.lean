import FeedTraffic.Proofs.Measuring
import FeedTraffic.Proofs.Visitors

/-!
# Pages one after another

Requests that belong together are sent in order until the verdict on one of them is a failure.  A
request that got no answer has no verdict and holds nothing up.  The pages of rapid pagination go
back in time by an hour each, as far as the clock goes.
-/

namespace FeedTraffic.Traffic

open FeedTraffic.Feed FeedTraffic.Http

/-! ## Up to the first -/

section UpTo

variable {α : Type} (p : α → Bool) {as : List α} {i : Nat} {a : α}

/-- The entries of a list up to the first one with a property, which is the last one then. -/
def upTo (as : List α) : List α := as.take (as.findIdx p + 1)

variable {p}

theorem getElem?_upTo : (upTo p as)[i]? = some a ↔ i ≤ as.findIdx p ∧ as[i]? = some a := by
  rw [upTo, List.getElem?_take, Option.ite_none_right_eq_some, Nat.lt_succ_iff]

/-- Only the last entry has the property, and it need not have it. -/
theorem getElem?_upTo_iff (found : (upTo p as)[i]? = some a) :
    p a = true ↔ i = as.findIdx p := by
  obtain ⟨within, here⟩ := getElem?_upTo.mp found
  obtain ⟨inside, rfl⟩ := List.getElem?_eq_some_iff.mp here
  constructor
  · intro holds
    by_contra other
    have before : i < as.findIdx p := by omega
    rw [List.not_of_lt_findIdx before] at holds
    cases holds
  · rintro rfl
    exact List.findIdx_getElem

theorem length_upTo (found : (upTo p as)[i]? = some a) (holds : p a = true) :
    (upTo p as).length = i + 1 := by
  have last : i = as.findIdx p := (getElem?_upTo_iff found).mp holds
  obtain ⟨inside, -⟩ := List.getElem?_eq_some_iff.mp (getElem?_upTo.mp found).2
  rw [upTo, List.length_take]
  omega

/-- There is a next entry exactly if the present one has not the property. -/
theorem lt_length_upTo_iff (inside : i + 1 < as.length) :
    i + 1 < (upTo p as).length ↔ ∃ a, (upTo p as)[i]? = some a ∧ p a = false := by
  have length : (upTo p as).length = min (as.findIdx p + 1) as.length := List.length_take
  constructor
  · intro next
    have found : (upTo p as)[i]? = some as[i] :=
      getElem?_upTo.mpr ⟨by omega, List.getElem?_eq_getElem _⟩
    refine ⟨as[i], found, ?_⟩
    rw [← Bool.not_eq_true, getElem?_upTo_iff found]
    omega
  · rintro ⟨a, found, fails⟩
    have other : i ≠ as.findIdx p := by
      rw [← Bool.not_eq_true, getElem?_upTo_iff found] at fails
      exact fails
    have within := (getElem?_upTo.mp found).1
    omega

theorem upTo_eq_self (none : ∀ a ∈ upTo p as, p a = false) : upTo p as = as := by
  refine List.take_of_length_le ?_
  by_contra short
  have inside : as.findIdx p < as.length := by omega
  have found : (upTo p as)[as.findIdx p]? = some as[as.findIdx p] :=
    getElem?_upTo.mpr ⟨Nat.le_refl _, List.getElem?_eq_getElem _⟩
  have holds : p as[as.findIdx p] = true := List.findIdx_getElem
  rw [none _ (List.mem_of_getElem? found)] at holds
  cases holds

end UpTo

/-! ## Up to the first failure -/

def Sent.failed (s : Sent) : Bool := s.failure?.isSome

namespace Sent

theorem failed_of_failure? {s : Sent} {last : Measurement} (fails : s.failure? = some last) :
    s.failed = true := by
  rw [failed, fails]
  rfl

theorem failure?_of_outcome {s : Sent} {last : Measurement} {message : String}
    (ended : s.outcome = .failed last message) : s.failure? = some last := by
  rw [failure?, ended]

theorem failure?_eq_none_iff (s : Sent) : s.failure? = none ↔ s.failed = false := by
  rw [failed, Option.isSome_eq_false_iff, Option.isNone_iff_eq_none]

/-- A request that did not fail passed or got no answer. -/
theorem failed_eq_false_iff (s : Sent) :
    s.failed = false ↔
      (∃ body, s.outcome = .passed body) ∨ ∃ cause address, s.outcome = .lost cause address := by
  cases ended : s.outcome <;> simp [failed, failure?, ended]

/-- A task ends with the measurement of the first request that fails. -/
theorem ending?_upTo {all : List Sent} {i : Nat} {sent : Sent} {last : Measurement}
    (found : (upTo failed all)[i]? = some sent) (fails : sent.failure? = some last) :
    ending? (upTo failed all) = some last := by
  have at_end : i = all.findIdx failed :=
    (getElem?_upTo_iff found).mp (failed_of_failure? fails)
  have here := (getElem?_upTo.mp found).2
  refine List.findSome?_eq_some_iff.mpr ⟨all.take i, sent, [], ?_, fails, ?_⟩
  · rw [upTo, ← at_end, List.take_add_one, here]
    rfl
  · intro earlier member
    obtain ⟨j, inside, rfl⟩ := List.mem_take_iff_getElem.mp member
    exact (failure?_eq_none_iff _).mpr (List.not_of_lt_findIdx (by omega))

end Sent

section Sending

variable {σ : Type} (service : Service σ) (base : Url)

/-- Of the requests, sent regardless of failures, those up to the first failure are sent. -/
theorem sendAll_eq_upTo (rs : List Request) (s : σ) :
    (sendAll service base rs s).1 = upTo Sent.failed
      ((rs.zip (replies service base rs s).1).map fun p => Sent.ofReply p.1 p.2) := by
  have regardless (rs : List Request) (s : σ) := congrArg Prod.fst (mapM_send service base rs s)
  simp only at regardless
  rw [← regardless]
  induction rs generalizing s with
  | nil => rfl
  | cons r rs ih =>
    rw [sendAll_cons, Stateful.mapM_cons_apply, upTo]
    by_cases failed : (send service base r s).1.failed = true
    · have stops : (send service base r s).1.failure?.isSome = true := failed
      simp [stops, failed, List.findIdx_cons]
    · have goes_on : ¬(send service base r s).1.failure?.isSome = true := failed
      simp [goes_on, failed, List.findIdx_cons, ih, upTo]

end Sending

/-- Requests are sent in order until one fails.  What is sent ends as its own reply demands. -/
structure StopsAtFailure (rs : List Request) (answers : List Reply) (turn : List Sent) : Prop where
  filled : rs ≠ [] → turn ≠ []
  beginning : turn.map (·.request) <+: rs
  settled : ∀ (i : Nat) (sent : Sent), turn[i]? = some sent →
    ∃ answer, answers[i]? = some answer ∧ sent.Settles sent.request answer
  /-- The next one is sent if, and only if, this one passed or got no answer. -/
  goes_on : ∀ i, i + 1 < rs.length → (i + 1 < turn.length ↔ ∃ sent, turn[i]? = some sent ∧
    ((∃ body, sent.outcome = .passed body) ∨ ∃ cause address, sent.outcome = .lost cause address))
  /-- One that fails is the last, and the task ends with its measurement. -/
  stops : ∀ (i : Nat) (sent : Sent) last message,
    turn[i]? = some sent → sent.outcome = .failed last message →
      turn.length = i + 1 ∧ Sent.ending? turn = some last
  finishes : (∀ sent ∈ turn, ∀ last message, sent.outcome ≠ .failed last message) →
    turn.map (·.request) = rs ∧ Sent.ending? turn = none

theorem length_replies {σ : Type} (service : Service σ) (base : Url) (rs : List Request) (s : σ) :
    (replies service base rs s).1.length = rs.length := Stateful.length_mapM _ rs s

theorem sendAll_stops {σ : Type} (service : Service σ) (base : Url) (rs : List Request) (s : σ) :
    StopsAtFailure rs (replies service base rs s).1 (sendAll service base rs s).1 := by
  let answers := (replies service base rs s).1
  let all := (rs.zip answers).map fun p => Sent.ofReply p.1 p.2
  have turn : (sendAll service base rs s).1 = upTo Sent.failed all :=
    sendAll_eq_upTo service base rs s
  have length : all.length = rs.length := by
    simp [all, answers, length_replies]
  have requests : all.map (·.request) = rs := by
    simp only [all, List.map_map, Function.comp_def, Sent.ofReply_request]
    exact List.map_fst_zip (length_replies service base rs s).ge
  rw [turn]
  refine ⟨?_, turn ▸ sendAll_isPrefix service base rs s, ?_, ?_, ?_, ?_⟩
  · intro filled
    have some_sent : all ≠ [] := by
      rw [← List.length_pos_iff, length]
      exact List.length_pos_iff.mpr filled
    simpa [upTo] using some_sent
  · intro i sent found
    have here := (getElem?_upTo.mp found).2
    rw [List.getElem?_map, Option.map_eq_some_iff] at here
    obtain ⟨⟨r, answer⟩, paired, rfl⟩ := here
    refine ⟨answer, (List.getElem?_zip_eq_some.mp paired).2, ?_⟩
    rw [Sent.ofReply_request]
    exact Sent.settles r answer
  · intro i inside
    simp only [lt_length_upTo_iff (length ▸ inside), Sent.failed_eq_false_iff]
  · intro i sent last message found ended
    have fails := Sent.failure?_of_outcome ended
    exact ⟨length_upTo found (Sent.failed_of_failure? fails), Sent.ending?_upTo found fails⟩
  · intro no_failure
    have passing : ∀ sent ∈ upTo Sent.failed all, sent.failed = false := by
      intro sent member
      rw [Sent.failed_eq_false_iff]
      cases ended : sent.outcome with
      | passed body => exact Or.inl ⟨body, rfl⟩
      | lost cause address => exact Or.inr ⟨cause, address, rfl⟩
      | failed last message => exact absurd ended (no_failure sent member last message)
    have unhindered : Sent.ending? (upTo Sent.failed all) = none :=
      List.findSome?_eq_none_iff.mpr fun sent member =>
        (Sent.failure?_eq_none_iff sent).mpr (passing sent member)
    refine ⟨?_, unhindered⟩
    rw [upTo_eq_self passing]
    exact requests

end FeedTraffic.Traffic

namespace FeedTraffic.Traffic.Visitor

open FeedTraffic.Feed FeedTraffic.Http FeedTraffic.Random FeedTraffic.User

variable {σ : Type}

/-! ## Rapid pagination -/

/-- The session of a visitor, or the one that its next recipe begins. -/
def nextSession (v : Visitor σ) : Session := v.session.getD (Session.start v.store.view v.words).1

/-- The pages that a visitor sets out to send are those of its session and its clock. -/
theorem perform_rapidPagination (site : Site σ) (now : Nat) (v : Visitor σ) :
    (perform site now .rapidPagination v).1 =
      (sendAll site.service site.base (Recipe.pageOffsets.map
        (Recipe.rapidPage ⟨v.store.view, v.nextSession.requester, now⟩)) v.service).1 := by
  cases session : v.session with
  | some s =>
    have known : v.nextSession = s := by rw [nextSession, session]; rfl
    rw [perform_of_some site now _ session, known]
    rfl
  | none =>
    have begins : v.nextSession = (Session.start v.store.view v.words).1 := by
      rw [nextSession, session]
      rfl
    rw [perform_of_none site now _ session, perform_of_some site now _ rfl, begins]
    rfl

/-- A visitor, with a session or without one, sends the pages in order, the first one in any case.
The next page is sent exactly if this one passed or got no answer.  A page whose verdict is a
failure is the last, and the task ends with its measurement; without such a page all three are sent
and the task ends well.  The pages start one, two and three hours back, each before the one that was sent
last, until the clock's zero is reached. -/
theorem pagination_stops_at_failure (site : Site σ) (now : Nat) (v : Visitor σ) :
    let start (i : Nat) : Nat := now - 3600 * (i + 1)
    let page (i : Nat) : Request :=
      ⟨.postsWatching, [(requesterKey, v.nextSession.requester), ("limit", "50"),
        ("before", toString (start i))], .ok⟩
    let pages := [page 0, page 1, page 2]
    let answers := (replies site.service site.base pages v.service).1
    let turn := (perform site now .rapidPagination v).1
    turn ≠ [] ∧ StopsAtFailure pages answers turn ∧
      (∀ i, (start i : Int) = max 0 (now - 3600 * (i + 1))) ∧
      ∀ i, start (i + 1) ≤ start i ∧ (start i ≠ 0 → start (i + 1) < start i) := by
  intro start page pages answers turn
  have stops : StopsAtFailure pages answers turn := by
    simp only [turn, perform_rapidPagination]
    exact sendAll_stops site.service site.base pages v.service
  refine ⟨stops.filled (List.cons_ne_nil _ _), stops, ?_, ?_⟩
  · intro i
    simp only [start]
    omega
  · intro i
    simp only [start]
    omega

/-- A page without an answer holds nothing up, and a failure does. -/
example :
    let failing : Script := { cues := [.drop, .respond (.ofText 500 "boom"), .respond {}] }
    let site : Site Script :=
      ⟨Script.service, { scheme := "http", authority := some "127.0.0.1:8080", path := "/" }⟩
    let turn := (perform site 5000 .rapidPagination { words := .cyclic [], service := failing }).1
    turn.map (·.request.params.lookup "before") = [some "1400", some "0"] ∧
      (Sent.ending? turn).map (·.status) = some 500 := by
  decide +kernel

end FeedTraffic.Traffic.Visitor
