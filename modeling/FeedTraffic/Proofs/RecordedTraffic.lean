import FeedTraffic.Proofs.Lockstep
import FeedTraffic.Traffic.Preflight

/-!
# Requests that load tests and checks start

With a recorder in front of its service a load test does the same as without.  What the recorder
shows of a load test goes to the feed, and there is nothing of it if the test is refused.  Of a
check of the host it shows the request for its health alone.
-/

namespace FeedTraffic.Http

variable {σ : Type} {allowed : Url → Prop} {before : List Url}

/-- A recording keeps up with a service: besides the requests of before there are only such to
allowed addresses. -/
structure Recording.Follows (allowed : Url → Prop) (before : List Url) (kept : Recording σ)
    (s : σ) : Prop where
  service : kept.service = s
  idle : kept.pending = 0
  started : ∃ more, kept.started = before ++ more ∧ ∀ u ∈ more, allowed u

theorem Recording.follows_start (s : σ) :
    Recording.Follows allowed before { service := s, started := before } s :=
  ⟨rfl, rfl, [], (List.append_nil before).symm, nofun⟩

end FeedTraffic.Http

namespace FeedTraffic.Traffic

open FeedTraffic.Feed FeedTraffic.Http FeedTraffic.Settings FeedTraffic.Stateful FeedTraffic.User

variable {σ : Type} {allowed : Url → Prop} {before : List Url}

/-! ## Requests to the feed -/

theorem send_inStep (service : Service σ) {base : Url} {r : Request}
    (goes : allowed (address base r).withoutUser) :
    InStep (Recording.Follows allowed before) (send service.recorded base r)
      (send service base r) := by
  intro kept s follows
  obtain ⟨state, started, pending⟩ := kept
  obtain ⟨rfl, rfl, more, rfl, all⟩ := follows
  rw [send_recorded]
  refine ⟨rfl, rfl, rfl, more ++ [(address base r).withoutUser], List.append_assoc _ _ _, ?_⟩
  intro u member
  rcases List.mem_append.mp member with earlier | last
  · exact all u earlier
  · rwa [List.mem_singleton.mp last]

/-- An address at which a host is asked for its feed, by HTTP. -/
def IsFeed (host : String) (u : Url) : Prop :=
  ∃ base r, Url.ofText host = .ok base ∧ base.isHttp = true ∧ r.endpoint ≠ .health ∧
    u = (address base r).withoutUser

theorem IsFeed.path_ne_health {host : String} {u : Url} (h : IsFeed host u) :
    u.path ≠ Endpoint.health.path := by
  obtain ⟨base, r, -, -, on_feed, rfl⟩ := h
  exact fun same => on_feed (Mock.path_injective same)

theorem send_refusing (base : Url) (r : Request) (s : σ) :
    send .refusing base r s = (.ofReply r (.failed .scheme (address base r).withoutUser), s) := rfl

/-- A site and its recording keep together over the feed. -/
theorem feed_inStep (service : Service σ) {host : String} {url : Url}
    (found : Url.ofText host = .ok url) :
    Site.Alike (Recording.Follows (IsFeed host) before) (Attack.site service.recorded url)
      (Attack.site service url) where
  base := rfl
  sends rs on_feed := by
    refine sendAll_inStep fun r member => ?_
    by_cases spoken : url.isHttp = true
    · simp only [Attack.site, spoken, if_true]
      exact send_inStep service ⟨url, r, found, spoken, on_feed r member, rfl⟩
    · simp only [Attack.site, spoken]
      intro kept s follows
      exact ⟨congrArg Prod.fst (send_refusing url r s).symm, follows⟩

/-- A scene with a recorder in front of its service, which was asked for some addresses before. -/
def Scene.recorded (scene : Scene σ) (before : List Url := []) : Scene (Recording σ) where
  store := scene.store
  words := scene.words
  service := { service := scene.service, started := before }

theorem Scene.recorded_alike (scene : Scene σ) :
    Scene.Alike (Recording.Follows allowed before) (scene.recorded before) scene :=
  ⟨rfl, rfl, Recording.follows_start scene.service⟩

namespace Attack

theorem base_host {config : Config} {url : Url} (found : base config = .ok url) :
    Url.ofText config.host = .ok url := by
  rw [base] at found
  split at found
  · cases found
  · cases read : Url.ofText config.host with
    | error fault =>
      rw [read] at found
      cases found
    | ok u =>
      rw [read] at found
      rw [Except.ok.inj found]

/-- Recorded or not, a load test does the same, and it starts only requests to the feed. -/
theorem run_recorded (service : Service σ) (course : Course) (config : Config) :
    InStep (Scene.Alike (Recording.Follows (IsFeed config.host) before))
      (run service.recorded course config) (run service course config) :=
  run_inStep course config fun _ found => feed_inStep service (base_host found)

/-- A load test that is refused asks for nothing. -/
theorem run_service_of_error (service : Service σ) (course : Course) {config : Config}
    (scene : Scene σ) {r : Refusal} (refused : (plan config).2 = .error r) :
    (run service course config scene).2.service = scene.service := by
  rw [(run_of_error service course scene refused).2, install_scene]

theorem plan_noProfiles {config : Config} {e : User.NoProfiles}
    (none_there : config.profiles.enabled config.followingFeed = .error e) :
    (plan config).2 = .error .noProfiles := by
  simp only [plan, scenarios, none_there]

end Attack

/-! ## Requests for the health of a host -/

namespace Preflight

/-- The requests that are started towards a destination: one, if there is a destination. -/
def towards : Except (List String) Url → List Url
  | .ok u => [u.withoutUser]
  | .error _ => []

/-- The requests that a check starts.  Not to be unfolded where a host is not known: that would
read an address that is not known either. -/
@[irreducible]
def requests (host : String) : List Url := towards (destination (healthText host))

theorem requests_of_destination {host : String} {u : Url}
    (found : destination (healthText host) = .ok u) : requests host = [u.withoutUser] := by
  delta requests
  rw [found]
  rfl

theorem requests_of_nowhere {host : String} {causes : List String}
    (lost : destination (healthText host) = .error causes) : requests host = [] := by
  delta requests
  rw [lost]
  rfl

def judge (text : String) : Reply → Except Fault Unit
  | .failed cause a => .error (.lost text cause a)
  | .answered r => if Status.isSuccess r.status then .ok () else .error (.status r.status)

theorem judge_eq_ok_iff {text : String} {reply : Reply} :
    judge text reply = .ok () ↔ ∃ r, reply = .answered r ∧ Status.isSuccess r.status = true := by
  cases reply with
  | failed cause a => simp [judge]
  | answered r => by_cases success : Status.isSuccess r.status = true <;> simp [judge, success]

theorem probe_of_ok (service : Service σ) {text : String} {u : Url}
    (found : destination text = .ok u) (s : σ) :
    probe service text s = (judge text (exchange service u s).1, (exchange service u s).2) := by
  rcases asked : exchange service u s with ⟨reply, after⟩
  cases reply with
  | failed cause a =>
    simp only [probe, found, bind, StateT.bind, asked]
    rfl
  | answered r =>
    simp only [probe, found, bind, StateT.bind, asked, judge]
    by_cases success : Status.isSuccess r.status = true <;> simp only [success] <;> rfl

theorem probe_of_error (service : Service σ) {text : String} {causes : List String}
    (lost : destination text = .error causes) (s : σ) :
    probe service text s = (.error (.address text causes), s) := by
  simp only [probe, lost]
  rfl

theorem probe_recorded (service : Service σ) (host : String) (s : σ) (before : List Url) :
    probe service.recorded (healthText host) { service := s, started := before } =
      ((probe service (healthText host) s).1,
        { service := (probe service (healthText host) s).2
          started := before ++ requests host }) := by
  cases found : destination (healthText host) with
  | error causes =>
    rw [probe_of_error service found, probe_of_error service.recorded found,
      requests_of_nowhere found, List.append_nil]
  | ok u =>
    rw [probe_of_ok service found, probe_of_ok service.recorded found, exchange_recorded,
      requests_of_destination found]

/-- Recorded or not, a check does the same, and it starts no requests but its own. -/
theorem check_recorded (service : Service σ) (host : String) (s : σ) :
    check service.recorded host { service := s, started := before } =
      ((check service host s).1,
        { service := (check service host s).2, started := before ++ requests host }) := by
  have recorded := probe_recorded service host s before
  rcases probed : probe service (healthText host) s with ⟨outcome, after⟩
  rw [probed] at recorded
  simp only [check, bind, StateT.bind, probed, recorded]
  cases outcome <;> rfl

theorem check_outcome (service : Service σ) (host : String) (s : σ) :
    (check service host s).1.2 = (probe service (healthText host) s).1 := by
  rcases probed : probe service (healthText host) s with ⟨outcome, after⟩
  simp only [check, bind, StateT.bind, probed]
  cases outcome <;> rfl

/-- A host is healthy if its health endpoint can be asked and, after redirects, answers with a
status of success. -/
theorem check_ok_iff (service : Service σ) (host : String) (s : σ) :
    (check service host s).1.2 = .ok () ↔
      ∃ u r, destination (healthText host) = .ok u ∧
        (exchange service u s).1 = .answered r ∧ Status.isSuccess r.status = true := by
  rw [check_outcome]
  cases found : destination (healthText host) with
  | error causes =>
    rw [probe_of_error service found]
    exact ⟨nofun, nofun⟩
  | ok u =>
    rw [probe_of_ok service found, judge_eq_ok_iff]
    exact ⟨fun ⟨r, answered⟩ => ⟨u, r, rfl, answered⟩, fun ⟨_, r, rfl, answered⟩ => ⟨r, answered⟩⟩

/-- A healthy host was asked. -/
theorem requests_of_ok {service : Service σ} {host : String} {s : σ}
    (healthy : (check service host s).1.2 = .ok ()) : ∃ u, requests host = [u] := by
  obtain ⟨u, -, found, -⟩ := (check_ok_iff service host s).mp healthy
  exact ⟨u.withoutUser, requests_of_destination found⟩

end Preflight

end FeedTraffic.Traffic
