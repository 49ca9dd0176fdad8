import FeedTraffic.Proofs.AddressTexts
import FeedTraffic.Proofs.RecordedTraffic
import Mathlib.Data.List.DropRight

/-!
# Checks and load tests below a host

A check asks for the health of a host below the path of the host.  A load test reads the paths of
its requests from the root, so a path of the host is lost there.  Both go to the same place exactly
if the host has no path of its own.
-/

namespace FeedTraffic.Http.Url

/-- The text of a host without slashes at its end. -/
def trimmed (host : String) : String := String.ofList (host.toList.rdropWhile (· == '/'))

/-- Slashes at the end of a path are not those of its front. -/
theorem rdropWhile_slashes {front path : List Char} (ends : ∀ c ∈ front.getLast?, c ≠ '/') :
    (front ++ path).rdropWhile (· == '/') = front ++ path.rdropWhile (· == '/') := by
  induction path using List.reverseRecOn with
  | nil =>
    rw [List.append_nil, List.rdropWhile_nil, List.append_nil, List.rdropWhile_eq_self_iff]
    intro filled
    simpa using ends _ (List.getLast?_eq_some_getLast filled)
  | append_singleton path c ih =>
    rw [← List.append_assoc, List.rdropWhile_concat, List.rdropWhile_concat, ih]
    split
    · rfl
    · rw [List.append_assoc]

end FeedTraffic.Http.Url

namespace FeedTraffic.Traffic

open FeedTraffic.Feed FeedTraffic.Http

/-- The text of a web address without query and fragment, and what it is read as. -/
structure IsSite (host : String) (base : Url) : Prop where
  read : Url.ofText host = .ok base
  scheme : base.scheme = "http" ∨ base.scheme = "https"
  solid : Url.AreSolid host.toList

theorem Preflight.healthText_eq (host : String) :
    healthText host = Url.trimmed host ++ Endpoint.health.path := rfl

/-- The path of an endpoint is a slash and a segment. -/
theorem path_segment (e : Endpoint) :
    ∃ x, e.path = String.ofList ('/' :: x) ∧ Url.IsSegment x ∧ Url.IsPath ('/' :: x) := by
  have all : ∀ e ∈ Endpoint.all,
      let x := e.path.toList.tail
      e.path = String.ofList ('/' :: x) ∧ Url.AreSolid ('/' :: x) ∧ '/' ∉ x ∧
        Url.dots x ≠ ['.'] ∧ Url.dots x ≠ ['.', '.'] ∧
        Form.escapeWhere Url.isPathEscape x = x := by
    decide +kernel
  obtain ⟨text, solid, whole, stays, goes_on, plain⟩ := all e e.mem_all
  exact ⟨_, text, ⟨whole, stays, goes_on, plain⟩, solid, by simp⟩

section Sites

variable {host : String} {base : Url}

theorem IsSite.web (site : IsSite host base) : Url.isWeb base.scheme = true := by
  rcases site.scheme with http | https
  · rw [http]
    rfl
  · rw [https]
    rfl

/-- Without the slashes at its end, the text of a site is read as the same site with a path of its
own.  So is the text with an endpoint behind it, and there the path is that of the endpoint exactly
if the path of the host is the root. -/
theorem IsSite.below (site : IsSite host base) :
    base.query = none ∧ base.fragment = none ∧
      ∃ own, Url.ofText (Url.trimmed host) = .ok { base with path := own } ∧
        ∀ e : Endpoint, ∃ path,
          Url.ofText (Url.trimmed host ++ e.path) = .ok { base with path } ∧
          (path = e.path ↔ own = "/") := by
  obtain ⟨front, path, text, follows, fronts⟩ := Url.ofText_front site.web site.solid site.read
  have trims : Url.trimmed host = String.ofList (front ++ path.rdropWhile (· == '/')) := by
    rw [Url.trimmed, text, Url.rdropWhile_slashes fronts.ends]
  have shorter : path.rdropWhile (· == '/') <+: path := List.rdropWhile_prefix _ _
  have ends : ∀ c ∈ (path.rdropWhile (· == '/')).getLast?, c ≠ '/' := by
    intro c last
    obtain ⟨filled, same⟩ := List.mem_getLast?_eq_getLast last
    have stops := List.rdropWhile_last_not (· == '/') path filled
    simpa [← same] using stops
  generalize path.rdropWhile (· == '/') = short at *
  have own_path : Url.IsPath short := follows.of_prefix shorter
  refine ⟨fronts.query, fronts.fragment, Url.webPath short, ?_, fun e => ?_⟩
  · rw [trims]
    exact fronts.reads short own_path
  · obtain ⟨x, name, plain, segment⟩ := path_segment e
    have below : Url.IsPath (short ++ '/' :: x) := own_path.append segment
    refine ⟨Url.webPath (short ++ '/' :: x), ?_, ?_⟩
    · rw [trims, name, ← String.ofList_append, List.append_assoc]
      exact fronts.reads _ below
    · rw [name]
      exact Url.webPath_append_iff below ends plain

/-- Where a request goes without its parameters is what the path of its endpoint names from the
base. -/
theorem IsSite.join (site : IsSite host base) (r : Request) :
    base.join r.endpoint.path = .ok { address base r with query := none } := by
  obtain ⟨x, name, plain, segment⟩ := path_segment r.endpoint
  have rooted := Url.ofText_rooted site.web site.solid site.read
  rw [name, Url.join_segment site.web rooted plain segment, address, name]

variable {σ : Type} (service : Service σ)

/-- A check of a site starts one request, and it goes to the text of the host without the slashes at
its end and with the path of the health endpoint behind it.  A request of a load test goes where the
path of its endpoint leads from the host.  This is the text of the host without the slashes at its
end and with that path behind it exactly if the text alone is read with the root as its path. -/
theorem requests_below_host_iff (site : IsSite host base) (s : σ) :
    ∃ own, Url.ofText (Url.trimmed host) = .ok own ∧
      (∃ u, Url.ofText (Url.trimmed host ++ Endpoint.health.path) = .ok u ∧
        (Preflight.check service.recorded host { service := s }).2.started = [u.withoutUser]) ∧
      ∀ r : Request, ∃ u w,
        Url.ofText (Url.trimmed host ++ r.endpoint.path) = .ok u ∧
        (send service.recorded base r { service := s }).2.started = [w] ∧
        (base.join r.endpoint.path).map Url.withoutUser = .ok { w with query := none } ∧
        ({ w with query := none } = u.withoutUser ↔ own.path = "/") := by
  obtain ⟨no_query, no_fragment, own, trims, below⟩ := site.below
  refine ⟨_, trims, ?_, fun r => ?_⟩
  · obtain ⟨path, read, -⟩ := below .health
    have found : Preflight.destination (Preflight.healthText host) = .ok { base with path } := by
      rw [Preflight.healthText_eq, Preflight.destination, read]
      exact if_pos (Url.isHttp_iff.mpr site.scheme)
    refine ⟨_, read, ?_⟩
    rw [Preflight.check_recorded, Preflight.requests_of_destination found, List.nil_append]
  · obtain ⟨path, read, same⟩ := below r.endpoint
    refine ⟨_, (address base r).withoutUser, read, ?_, ?_, ?_⟩
    · rw [send_recorded, List.nil_append]
    · rw [site.join r]
      rfl
    · rw [← same]
      -- all but the paths is the same
      have parts : { (address base r).withoutUser with query := none } =
          { base.withoutUser with path := r.endpoint.path } := by
        simp only [address, Url.withoutUser, no_query, no_fragment]
      rw [parts]
      constructor
      · intro alike
        exact (congrArg Url.path alike).symm
      · rintro rfl
        rfl

end Sites

/-- A host whose path leads back to its root is the root for both, whatever the case of its
scheme, its user and its service number. -/
theorem requests_below_host_iff_roundabout :
    let host := "HTTP://ann@127.0.0.1:80/api/..//"
    let base : Url := { scheme := "http", authority := some "ann@127.0.0.1", path := "//" }
    let r : Request := { endpoint := .posts, params := [("user", "02ab")] }
    IsSite host base ∧ ∃ u w,
      Url.ofText (Url.trimmed host ++ r.endpoint.path) = .ok u ∧
      (send Script.service.recorded base r { service := {} }).2.started = [w] ∧
      { w with query := none } = u.withoutUser := by
  intro host base r
  have site : IsSite host base := ⟨by decide +kernel, Or.inl rfl, by decide +kernel⟩
  have root : Url.ofText (Url.trimmed host) = .ok { base with path := "/" } := by decide +kernel
  obtain ⟨own, read, -, all⟩ := requests_below_host_iff Script.service site {}
  obtain ⟨u, w, below, sent, -, same⟩ := all r
  have own_path : own.path = "/" := congrArg Url.path (Except.ok.inj (read.symm.trans root))
  exact ⟨site, u, w, below, sent, same.mpr own_path⟩

/-- Of a host with a path, a check asks below the path and a load test beside it. -/
theorem requests_beside_path_of_host :
    let host := "http://127.0.0.1:8080/api/"
    let base : Url := { scheme := "http", authority := some "127.0.0.1:8080", path := "/api/" }
    let r : Request := { endpoint := .posts }
    IsSite host base ∧
      (Preflight.check Script.service.recorded host { service := {} }).2.started =
        [{ base with path := "/api/health" }] ∧
      (send Script.service.recorded base r { service := {} }).2.started =
        [{ base with path := "/get-posts" }] ∧
      Url.ofText (Url.trimmed host ++ r.endpoint.path) =
        .ok { base with path := "/api/get-posts" } ∧
      ∀ u, Url.ofText (Url.trimmed host ++ r.endpoint.path) = .ok u →
        (send Script.service.recorded base r { service := {} }).2.started ≠ [u.withoutUser] := by
  intro host base r
  have site : IsSite host base := ⟨by decide +kernel, Or.inl rfl, by decide +kernel⟩
  have checked : (Preflight.check Script.service.recorded host { service := {} }).2.started =
      [{ base with path := "/api/health" }] := by decide +kernel
  have sent : (send Script.service.recorded base r { service := {} }).2.started =
      [{ base with path := "/get-posts" }] := by decide +kernel
  have below : Url.ofText (Url.trimmed host ++ r.endpoint.path) =
      .ok { base with path := "/api/get-posts" } := by decide +kernel
  refine ⟨site, checked, sent, below, fun u read => ?_⟩
  obtain rfl := Except.ok.inj (below.symm.trans read)
  rw [sent]
  decide +kernel

end FeedTraffic.Traffic
