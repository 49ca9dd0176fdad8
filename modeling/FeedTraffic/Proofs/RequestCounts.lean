import FeedTraffic.Proofs.Answers
import Mathlib.Data.List.Count
import Mathlib.Data.List.Perm.Basic

/-!
# What the mock feed counts

Each request to a path of the feed adds one to the count of that path, whatever its parameters are
and whatever comes of it.  Nothing else is counted.  So the counts of any number of requests tell
how often each path was asked for, and tell nothing about their order.  A status that is forced upon
the feed is the status of all its answers, and of no others.
-/

namespace FeedTraffic.Mock.Server

open FeedTraffic.Feed FeedTraffic.Http FeedTraffic.Stateful FeedTraffic.Traffic

/-! ## One request -/

/-- Beside the paths of the feed there is the health endpoint; all else is unknown. -/
theorem handle_elsewhere {path : String} (elsewhere : path ∉ feedPaths) (ps : Params)
    (s : Server) :
    handle path ps s =
      (if path = "/health" then .ofText 200 "OK" else .ofText 404 "Not Found", s) := by
  have unknown : feedPaths.contains path = false := by simpa using elsewhere
  by_cases health : path = "/health"
  · simp only [handle, bind, StateT.bind, get, getThe, MonadStateOf.get, StateT.get, health,
      if_true]
    rfl
  · simp only [handle, bind, StateT.bind, get, getThe, MonadStateOf.get, StateT.get, health,
      unknown, if_false, Bool.false_eq_true]
    rfl

theorem hits_handle (path : String) (ps : Params) (s : Server) (q : String) :
    (handle path ps s).2.hits q = s.hits q + if path ∈ feedPaths ∧ path = q then 1 else 0 := by
  by_cases on_feed : path ∈ feedPaths
  · rw [handle_feed on_feed]
    simp only [hits, lookup_bump, on_feed, true_and]
    by_cases same : path = q
    · subst same
      simp
    · simp [same, Ne.symm same]
  · simp [handle_elsewhere on_feed, on_feed]

theorem totalHits_handle (path : String) (ps : Params) (s : Server) :
    (handle path ps s).2.totalHits = s.totalHits + if path ∈ feedPaths then 1 else 0 := by
  by_cases on_feed : path ∈ feedPaths
  · rw [handle_feed on_feed]
    simp only [totalHits, sum_bump, on_feed, if_true]
  · simp [handle_elsewhere on_feed, on_feed]

theorem forced_handle (path : String) (ps : Params) (s : Server) :
    (handle path ps s).2.forced = s.forced := by
  by_cases on_feed : path ∈ feedPaths
  · rw [handle_feed on_feed]
  · rw [handle_elsewhere on_feed]

theorem status_answer {s : Server} {status : Nat} (forced : s.forced = some status)
    (path : String) (ps : Params) : (s.answer path ps).status = status := by
  rw [answer, forced]
  split
  · rename_i same
    exact Option.some.inj same.symm
  · rename_i same
    exact Option.some.inj same.symm
  · rename_i same
    cases same

/-! ## Many requests -/

def handleAll (rs : List (String × Params)) : StateM Server (List Response) :=
  rs.mapM fun r => handle r.1 r.2

theorem handleAll_nil (s : Server) : (handleAll [] s).2 = s := rfl

theorem handleAll_cons (r : String × Params) (rs : List (String × Params)) (s : Server) :
    (handleAll (r :: rs) s).2 = (handleAll rs (handle r.1 r.2 s).2).2 := by
  rw [handleAll, mapM_cons_apply]
  rfl

theorem hits_handleAll (rs : List (String × Params)) (s : Server) (q : String) :
    (handleAll rs s).2.hits q =
      s.hits q + if q ∈ feedPaths then (rs.map Prod.fst).count q else 0 := by
  induction rs generalizing s with
  | nil => simp [handleAll_nil]
  | cons r rs ih =>
    rw [handleAll_cons, ih, hits_handle, List.map_cons, List.count_cons]
    by_cases same : r.1 = q
    · subst same
      by_cases on_feed : r.1 ∈ feedPaths <;> simp [on_feed]
      omega
    · simp [same]

theorem totalHits_handleAll (rs : List (String × Params)) (s : Server) :
    (handleAll rs s).2.totalHits =
      s.totalHits + (rs.map Prod.fst).countP (· ∈ feedPaths) := by
  induction rs generalizing s with
  | nil => simp [handleAll_nil]
  | cons r rs ih =>
    rw [handleAll_cons, ih, totalHits_handle, List.map_cons, List.countP_cons]
    simp only [decide_eq_true_eq]
    omega

/-- Every request is answered with the forced status, unless it is not one to the feed. -/
theorem handleAll_forced (status : Nat) (rs : List (String × Params)) :
    Ensures (fun s => s.forced = some status) (handleAll rs) fun answers s =>
      List.Forall₂ (fun r answer => answer.status =
        if r.1 ∈ feedPaths then status else if r.1 = "/health" then 200 else 404) rs answers ∧
      s.forced = some status := by
  refine Ensures.mapM ?_ rs
  intro r s forced
  refine ⟨?_, (forced_handle r.1 r.2 s).trans forced⟩
  by_cases on_feed : r.1 ∈ feedPaths
  · rw [handle_feed on_feed, if_pos on_feed]
    exact status_answer forced r.1 r.2
  · rw [handle_elsewhere on_feed, if_neg on_feed]
    split <;> rfl

/-! ## Verdicts -/

/-- A request to the feed passes if the forced status is what it expects. -/
theorem send_forced {s : Server} {status : Nat} (forced : s.forced = some status) (base : Url)
    {r : Request} (on_feed : r.endpoint ≠ .health) :
    (∃ body, (send service base r s).1.outcome = .passed body) ↔
      Verdict.accepts r.expect status = true := by
  have answered := status_answer forced r.endpoint.path r.params
  have settled := Sent.settles r (exchange service (Traffic.address base r) s).1
  rw [exchange_mock on_feed] at settled
  have sent : (send service base r s).1 =
      .ofReply r (.answered (s.answer r.endpoint.path r.params)) := by
    rw [send_apply, exchange_mock on_feed]
  rw [sent]
  simp only [settled.passed_iff, Reply.answered.injEq, exists_eq_left', exists_and_left, exists_eq',
    and_true, Verdict.classify, answered]
  split <;> simp [*]

/-- A fresh mock feed, with a forced status or without one, counts every request to a path of the
feed once, under that path, and counts nothing else.  Any requests to the same paths, in any order
and with whatever parameters and forced status, give the same counts.  A forced status is the status
of all answers of the feed, while unknown paths are answered with 404; a request that is meant to be
answered passes exactly if that status is 200, a malformed one exactly if it is 400 or 404. -/
theorem counts_of_requests (forced : Option Nat) (rs : List (String × Params)) :
    let done := handleAll rs { forced }
    (∀ path ∈ feedPaths, done.2.hits path = (rs.map Prod.fst).count path) ∧
    (∀ path ∉ feedPaths, done.2.hits path = 0) ∧ done.2.hits "/health" = 0 ∧
    done.2.totalHits = (rs.map Prod.fst).countP (· ∈ feedPaths) ∧
    (∀ forced' rs', (rs'.map Prod.fst).Perm (rs.map Prod.fst) →
      let other := handleAll rs' { forced := forced' }
      (∀ path, other.2.hits path = done.2.hits path) ∧
        other.2.totalHits = done.2.totalHits) ∧
    ∀ status, forced = some status →
      List.Forall₂ (fun r answer =>
        (r.1 ∈ feedPaths → answer.status = status) ∧
        (r.1 ∉ feedPaths → r.1 ≠ "/health" → answer.status = 404)) rs done.1 ∧
      ∀ (base : Url) (r : Request), r.endpoint ≠ .health →
        let passes := ∃ body, (send service base r done.2).1.outcome = .passed body
        (r.expect = .ok → (passes ↔ status = 200)) ∧
        (r.expect = .clientError → (passes ↔ status = 400 ∨ status = 404)) := by
  intro done
  have hits (forced : Option Nat) (rs : List (String × Params)) (path : String) :
      (handleAll rs { forced }).2.hits path =
        if path ∈ feedPaths then (rs.map Prod.fst).count path else 0 :=
    (hits_handleAll rs _ path).trans (Nat.zero_add _)
  have total (forced : Option Nat) (rs : List (String × Params)) :
      (handleAll rs { forced }).2.totalHits = (rs.map Prod.fst).countP (· ∈ feedPaths) :=
    (totalHits_handleAll rs _).trans (Nat.zero_add _)
  have uncounted (path : String) (elsewhere : path ∉ feedPaths) : done.2.hits path = 0 :=
    (hits forced rs path).trans (if_neg elsewhere)
  refine ⟨?_, uncounted, uncounted _ (by decide +kernel), total forced rs, ?_, ?_⟩
  · intro path on_feed
    exact (hits forced rs path).trans (if_pos on_feed)
  · intro forced' rs' same
    constructor
    · intro path
      rw [hits, hits, same.count_eq]
    · rw [total, total, same.countP_eq]
  · rintro status rfl
    obtain ⟨answers, kept⟩ := handleAll_forced status rs { forced := some status } rfl
    refine ⟨?_, ?_⟩
    · refine answers.imp fun r answer settled => ⟨fun on_feed => ?_, fun elsewhere other => ?_⟩
      · rw [settled, if_pos on_feed]
      · rw [settled, if_neg elsewhere, if_neg other]
    · intro base r on_feed passes
      have passes_iff : passes ↔ Verdict.accepts r.expect status = true :=
        send_forced kept base on_feed
      rw [passes_iff]
      constructor
      · intro expects
        simp [expects, Verdict.accepts]
      · intro expects
        simp [expects, Verdict.accepts]

end FeedTraffic.Mock.Server
