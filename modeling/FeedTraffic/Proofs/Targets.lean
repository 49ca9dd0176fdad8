import FeedTraffic.Proofs.Answers
import FeedTraffic.Proofs.Recordings

/-!
# What a server sees of a request

A request is sent as one line of text, a path and perhaps a form behind a question mark.  Neither
part holds a question mark of its own, so the line comes apart again where it was put together, and
the form reads as the parameters that were sent.  Hence no two requests look the same.
-/

namespace FeedTraffic.Traffic

open FeedTraffic.Feed FeedTraffic.Http FeedTraffic.Mock

/-! ## Lines with a question mark -/

/-- A line up to its first question mark, and what follows it if there is one. -/
def splitTarget (line : String) : String × Option String :=
  let path := line.toList.takeWhile (· ≠ '?')
  (String.ofList path,
    if path.length < line.toList.length then
      some (String.ofList (line.toList.drop (path.length + 1)))
    else none)

theorem splitTarget_of_free {path : String} (free : '?' ∉ path.toList) :
    splitTarget path = (path, none) := by
  simp only [splitTarget, Form.takeWhile_of_not_mem free, String.ofList_toList, Nat.lt_irrefl,
    if_false]

theorem splitTarget_append {path : String} (free : '?' ∉ path.toList) (query : String) :
    splitTarget (path ++ "?" ++ query) = (path, some query) := by
  have line : (path ++ "?" ++ query).toList = path.toList ++ '?' :: query.toList := by
    simp
  have front : (path.toList ++ '?' :: query.toList).takeWhile (· ≠ '?') = path.toList :=
    Form.takeWhile_append_cons free query.toList
  simp only [splitTarget, line, front]
  simp

example : splitTarget "/get-posts?user=a?" = ("/get-posts", some "user=a?") := by
  decide +kernel

theorem mark_not_mem_path (e : Endpoint) : '?' ∉ e.path.toList := by
  revert e
  have all : ∀ e ∈ Endpoint.all, '?' ∉ e.path.toList := by decide +kernel
  exact fun e => all e e.mem_all

end FeedTraffic.Traffic

namespace FeedTraffic.Mock.Params

/-- Where no name stands twice, every parameter has the value that it was given. -/
theorem get?_eq_some_iff {ps : Params} (distinct : (ps.map Prod.fst).Nodup) (name value : String) :
    ps.get? name = some value ↔ (name, value) ∈ ps := by
  constructor
  · intro found
    obtain ⟨before, after, parts, -⟩ := List.lookup_eq_some_iff.mp found
    have member : (name, value) ∈ ps.reverse := by simp [parts]
    exact List.mem_reverse.mp member
  · intro member
    obtain ⟨before, after, rfl⟩ := List.append_of_mem member
    rw [List.map_append, List.map_cons] at distinct
    have last : name ∉ after.map Prod.fst :=
      (List.nodup_cons.mp (List.nodup_append.mp distinct).2.1).1
    refine List.lookup_eq_some_iff.mpr ⟨after.reverse, before.reverse, by simp, ?_⟩
    rintro ⟨key, other⟩ later
    rw [bne_iff_ne]
    rintro rfl
    exact last (List.mem_map_of_mem (List.mem_reverse.mp later))

end FeedTraffic.Mock.Params

namespace FeedTraffic.Traffic

open FeedTraffic.Feed FeedTraffic.Http FeedTraffic.Mock

/-! ## What is sent -/

/-- A line says which request it is: cut at its first question mark it is the path of the endpoint
and a form, and the form reads as the parameters. -/
structure Spells (line : String) (r : Request) : Prop where
  path : (splitTarget line).1 = r.endpoint.path
  no_form : (splitTarget line).2 = none ↔ r.params = []
  no_mark : r.params = [] → '?' ∉ line.toList
  one_mark : r.params ≠ [] → line.toList.count '?' = 1
  pairs : Form.decode ((splitTarget line).2.getD "") = r.params
  values : (r.params.map Prod.fst).Nodup → ∀ name value,
    Params.get? (Form.decode ((splitTarget line).2.getD "")) name = some value ↔
      (name, value) ∈ r.params

theorem splitTarget_address (base : Url) (r : Request) :
    splitTarget (address base r).target =
      (r.endpoint.path, if r.params.isEmpty then none else some (Form.encode r.params)) := by
  rw [address_target]
  by_cases bare : r.params.isEmpty
  · rw [if_pos bare, if_pos bare, String.append_empty]
    exact splitTarget_of_free (mark_not_mem_path r.endpoint)
  · rw [if_neg bare, if_neg bare, ← String.append_assoc]
    exact splitTarget_append (mark_not_mem_path r.endpoint) _

theorem address_spells (base : Url) (r : Request) : Spells (address base r).target r := by
  have parts := splitTarget_address base r
  have pairs : Form.decode ((splitTarget (address base r).target).2.getD "") = r.params := by
    rw [parts]
    exact Server.decode_address base r
  refine ⟨by rw [parts], ?_, ?_, ?_, pairs, ?_⟩
  · rw [parts]
    by_cases bare : r.params = [] <;> simp [bare]
  · intro bare
    rw [address_target, bare, List.isEmpty_nil, if_pos rfl, String.append_empty]
    exact mark_not_mem_path r.endpoint
  · intro filled
    have path : r.endpoint.path.toList.count '?' = 0 :=
      List.count_eq_zero.mpr (mark_not_mem_path r.endpoint)
    have form : (Form.encode r.params).toList.count '?' = 0 := by
      rw [Form.encode, String.toList_ofList]
      exact List.count_eq_zero.mpr (Form.mark_not_mem_encodePairs r.params)
    simp [address_target, filled, path, form]
  · intro distinct name value
    rw [pairs]
    exact Params.get?_eq_some_iff distinct name value

/-- A line says of no two requests that it is theirs, unless they only differ in what they
expect. -/
theorem Spells.unique {line : String} {r other : Request} (h : Spells line r)
    (h' : Spells line other) : other.endpoint = r.endpoint ∧ other.params = r.params :=
  ⟨path_injective (h'.path.symm.trans h.path), h'.pairs.symm.trans h.pairs⟩

/-- Sending a request starts exactly one, whose line says which request it is.  The mock feed reads
its path and its parameters from that line as they were meant, and no request to another endpoint or
with other parameters is ever sent with the same line. -/
theorem sent_line_spells_request {σ : Type} (service : Service σ) (base : Url) (r : Request)
    (s : σ) :
    ∃ u, (send service.recorded base r { service := s }).2.started = [u] ∧
      Spells u.target r ∧
      (∀ mock, Server.service u mock =
        (.ok (Server.handle r.endpoint.path r.params mock).1,
          (Server.handle r.endpoint.path r.params mock).2)) ∧
      ∀ (base' : Url) (other : Request) (t : σ),
        ∀ v ∈ (send service.recorded base' other { service := t }).2.started,
          v.target = u.target → other.endpoint = r.endpoint ∧ other.params = r.params := by
  have started (base : Url) (r : Request) (s : σ) :
      (send service.recorded base r { service := s }).2.started = [(address base r).withoutUser] :=
    congrArg (fun result => result.2.started) (send_recorded service base r s [])
  refine ⟨(address base r).withoutUser, started base r s, address_spells base r, ?_, ?_⟩
  · intro mock
    have params : Form.decode ((address base r).withoutUser.query.getD "") = r.params :=
      Server.decode_address base r
    have path : (address base r).withoutUser.path = r.endpoint.path := rfl
    simp only [Server.service, bind, StateT.bind, params, path]
    rfl
  · intro base' other t v member same
    rw [started, List.mem_singleton] at member
    subst member
    have theirs : Spells (address base r).target other := same ▸ address_spells base' other
    exact (address_spells base r).unique theirs

/-- Separators, signs and letters of any kind come through, and an empty value stays; what is
expected of the answer and where the host is do not show. -/
theorem sent_line_spells_request_odd_values :
    let base : Url := { scheme := "http", authority := some "127.0.0.1:3000", path := "/" }
    let base' : Url := { scheme := "https", authority := some "feed", path := "/v1" }
    let r : Request :=
      { endpoint := .postDetails
        params := [("id", "a&b=c+d%20 #?"), (requesterKey, ""), ("größe", "日本")] }
    ∃ u v, (send Script.service.recorded base r { service := {} }).2.started = [u] ∧
      (send Script.service.recorded base' r.expectClientError { service := {} }).2.started = [v] ∧
      v.target = u.target ∧ r.expectClientError.params = r.params ∧
      Params.get? (Form.decode ((splitTarget u.target).2.getD "")) "id" = some "a&b=c+d%20 #?" := by
  intro base base' r
  obtain ⟨u, started, spells, -, unique⟩ := sent_line_spells_request Script.service base r {}
  have distinct : (r.params.map Prod.fst).Nodup := by decide +kernel
  have first : [(address base r).withoutUser] = [u] := started
  have same : (address base' r.expectClientError).withoutUser.target = u.target := by
    rw [← List.singleton_inj.mp first]
    rfl
  have alike := unique base' r.expectClientError {} _ (List.mem_singleton_self _) same
  exact ⟨u, _, started, rfl, same, alike.2,
    (spells.values distinct _ _).mpr List.mem_cons_self⟩

end FeedTraffic.Traffic
