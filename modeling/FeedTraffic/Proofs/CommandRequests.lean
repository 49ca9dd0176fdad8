import FeedTraffic.Command.Execute
import FeedTraffic.Proofs.IdentifierVariables
import FeedTraffic.Proofs.RecordedTraffic

/-!
# Requests that commands start

A recorder in front of the service shows which requests a command starts.  The version and the
profiles are printed without any, and a command whose settings cannot be loaded starts none.  The
health of the host is asked for first, where it is asked for at all; what a load test starts after
that goes to the feed, whatever course the test takes, and there is nothing of it if the test is
refused.
-/

namespace FeedTraffic.Command

open FeedTraffic.Feed FeedTraffic.Http FeedTraffic.Settings FeedTraffic.Stateful
open FeedTraffic.Traffic

variable {σ : Type}

/-- A command does the same whether or not there is a recorder, and this shows which requests were
started. -/
structure Shows {α : Type} (watched : α × Scene (Recording σ)) (plain : α × Scene σ)
    (asked : List Url) : Prop where
  result : watched.1 = plain.1
  service : watched.2.service.service = plain.2.service
  asked : watched.2.service.started = asked

namespace Shows

theorem nothing {α : Type} (a : α) (scene : Scene σ) : Shows (a, scene.recorded) (a, scene) [] :=
  ⟨rfl, rfl, rfl⟩

theorem map {α β : Type} {watched : α × Scene (Recording σ)} {plain : α × Scene σ}
    {asked : List Url} (h : Shows watched plain asked) (f : α → β) :
    Shows (f watched.1, watched.2) (f plain.1, plain.2) asked :=
  ⟨congrArg f h.result, h.service, h.asked⟩

end Shows

/-! ## The health of a host -/

def Ending.ofCheck : Except Preflight.Fault Unit → Ending
  | .ok () => .success
  | .error f => .failure f.message f.causes

theorem Ending.ofCheck_eq_success_iff {outcome : Except Preflight.Fault Unit} :
    ofCheck outcome = .success ↔ outcome = .ok () := by
  cases outcome <;> simp [ofCheck]

/-- The outcome of a check of the host. -/
def health (service : Service σ) (config : Config) (scene : Scene σ) :
    Except Preflight.Fault Unit :=
  (Preflight.check service config.host scene.service).1.2

theorem checkHealth_apply (service : Service σ) (config : Config) (scene : Scene σ) :
    checkHealth service config scene =
      let checked := Preflight.check service config.host scene.service
      (({ ending := .ofCheck checked.1.2 }, checked.1.1), { scene with service := checked.2 }) := by
  rcases checked : Preflight.check service config.host scene.service with
    ⟨⟨records, outcome⟩, after⟩
  simp only [checkHealth, bind, StateT.bind, get, getThe, MonadStateOf.get, StateT.get, pure,
    checked]
  cases outcome <;> rfl

theorem checkHealth_ending (service : Service σ) (config : Config) (scene : Scene σ) :
    (checkHealth service config scene).1.1.ending = .ofCheck (health service config scene) := by
  rw [checkHealth_apply, health]

theorem checkHealth_recorded (service : Service σ) (config : Config) (scene : Scene σ) :
    checkHealth service.recorded config scene.recorded =
      ((checkHealth service config scene).1,
        (checkHealth service config scene).2.recorded (Preflight.requests config.host)) := by
  simp only [checkHealth_apply, Scene.recorded, Preflight.check_recorded, List.nil_append]

theorem checkHealth_shows (service : Service σ) (config : Config) (scene : Scene σ) :
    Shows (checkHealth service.recorded config scene.recorded) (checkHealth service config scene)
      (Preflight.requests config.host) := by
  rw [checkHealth_recorded]
  generalize checkHealth service config scene = done
  exact ⟨rfl, rfl, rfl⟩

theorem health_recorded (service : Service σ) (config : Config) (scene : Scene σ) :
    health service.recorded config scene.recorded = health service config scene := by
  simp only [health, Scene.recorded, Preflight.check_recorded]

/-! ## Load tests -/

section Attack

variable (service : Service σ) (course : Attack.Course) (config : Config) (scene : Scene σ)

theorem attack_scene : (attack service course config scene).2 =
    (Attack.run service course config scene).2 := by
  rcases done : Attack.run service course config scene with ⟨⟨records, outcome⟩, after⟩
  simp only [attack, bind, StateT.bind, done]
  cases outcome <;> rfl

/-- What a load test asks for goes to the feed; there is none of it if the test is refused. -/
theorem attack_shows (before : List Url) :
    ∃ feed, Shows (attack service.recorded course config (scene.recorded before))
        (attack service course config scene) (before ++ feed) ∧
      (∀ u ∈ feed, IsFeed config.host u ∧ u.path ≠ Endpoint.health.path) ∧
      ∀ r, (Attack.plan config).2 = .error r → feed = [] := by
  have kept : InStep (Scene.Alike (Recording.Follows (IsFeed config.host) before))
      (attack service.recorded course config) (attack service course config) := by
    refine InStep.bind (Attack.run_recorded service course config) ?_
    rintro ⟨records, totals | f⟩ <;> exact InStep.pure _
  obtain ⟨result, alike⟩ := kept _ _ scene.recorded_alike
  obtain ⟨feed, started, on_feed⟩ := alike.service.started
  refine ⟨feed, ⟨result, alike.service.service, started⟩, ?_, fun r refused => ?_⟩
  · exact fun u member => ⟨on_feed u member, (on_feed u member).path_ne_health⟩
  rw [attack_scene, Attack.run_service_of_error _ course _ refused] at started
  exact List.append_cancel_left (started.symm.trans (List.append_nil before).symm)

/-- What a load test with settings `config` asks a feed for, when the health check of the host comes
to `checked` and the test ends with `ending`. -/
structure FeedRequests (config : Config) (checked : Except Preflight.Fault Unit) (ending : Ending)
    (feed : List Url) : Prop where
  on_feed : ∀ u ∈ feed, IsFeed config.host u ∧ u.path ≠ Endpoint.health.path
  after_health : config.preflight = true → feed ≠ [] →
    ∃ u, Preflight.requests config.host = [u]
  unhealthy : config.preflight = true → ∀ f, checked = .error f →
    ending = .failure f.message f.causes ∧ feed = []
  no_profiles : ∀ e, config.profiles.enabled config.followingFeed = .error e → feed = []
  refused : ∀ r, (Attack.plan config).2 = .error r → feed = []

variable {config}

theorem runTest_of_unhealthy (asked : config.preflight = true) {f : Preflight.Fault}
    (unhealthy : health service config scene = .error f) :
    runTest service course config scene = checkHealth service config scene := by
  have ended := checkHealth_ending service config scene
  rcases checked : checkHealth service config scene with ⟨⟨result, records⟩, after⟩
  have failed : ¬result.ending = .success := by
    rw [checked] at ended
    rw [ended, Ending.ofCheck_eq_success_iff, unhealthy]
    exact nofun
  simp only [runTest, asked, if_true, bind, StateT.bind, checked, failed, if_false]
  rfl

theorem runTest_of_healthy (asked : config.preflight = true)
    (healthy : health service config scene = .ok ()) :
    runTest service course config scene =
      let checked := checkHealth service config scene
      let done := attack service course config checked.2
      ((done.1.1, checked.1.2 ++ done.1.2), done.2) := by
  have ended := checkHealth_ending service config scene
  rcases checked : checkHealth service config scene with ⟨⟨result, records⟩, after⟩
  have passed : result.ending = .success := by
    rw [checked] at ended
    exact ended.trans (Ending.ofCheck_eq_success_iff.mpr healthy)
  simp only [runTest, asked, if_true, bind, StateT.bind, checked, passed]
  rfl

/-- A load test asks for the health of its host first, if at all, and then only for the feed. -/
theorem runTest_shows :
    ∃ feed, Shows (runTest service.recorded course config scene.recorded)
        (runTest service course config scene)
        ((if config.preflight then Preflight.requests config.host else []) ++ feed) ∧
      FeedRequests config (health service config scene)
        (runTest service course config scene).1.1.ending feed := by
  by_cases asked : config.preflight = true
  · rw [if_pos asked]
    have same_health := health_recorded service config scene
    cases checked : health service config scene with
    | error f =>
      have ended := checkHealth_ending service config scene
      rw [checked] at ended same_health
      rw [runTest_of_unhealthy service course scene asked checked,
        runTest_of_unhealthy service.recorded course scene.recorded asked same_health]
      refine ⟨[], ?_, nofun, fun _ some_there => absurd rfl some_there, ?_, fun _ _ => rfl,
        fun _ _ => rfl⟩
      · rw [List.append_nil]
        exact checkHealth_shows service config scene
      · rintro - _ ⟨⟩
        exact ⟨ended, rfl⟩
    | ok healthy =>
      have one := Preflight.requests_of_ok checked
      rw [checked] at same_health
      rw [runTest_of_healthy service course scene asked checked,
        runTest_of_healthy service.recorded course scene.recorded asked same_health,
        checkHealth_recorded]
      -- the attack goes on from whatever the check has left
      generalize checkHealth service config scene = done
      obtain ⟨feed, recorded, on_feed, refused⟩ :=
        attack_shows service course config done.2 (Preflight.requests config.host)
      refine ⟨feed, ⟨?_, recorded.service, recorded.asked⟩, on_feed, fun _ _ => one, nofun, ?_,
        refused⟩
      · exact congrArg (fun result => (result.1, done.1.2 ++ result.2)) recorded.result
      · exact fun e none_there => refused _ (Attack.plan_noProfiles none_there)
  · rw [if_neg asked]
    have plain {τ : Type} (service : Service τ) (scene : Scene τ) :
        runTest service course config scene = attack service course config scene := by
      rw [runTest, if_neg asked]
    obtain ⟨feed, recorded, on_feed, refused⟩ := attack_shows service course config scene []
    rw [plain, plain]
    refine ⟨feed, recorded, on_feed, fun yes => absurd yes asked, fun yes => absurd yes asked, ?_,
      refused⟩
    exact fun e none_there => refused _ (Attack.plan_noProfiles none_there)

end Attack

/-! ## Whole commands -/

theorem loadEnding_exitCode (e : LoadError) : (loadEnding e).exitCode ≠ 0 := by
  rcases e with file | ⟨kind, path, origin⟩ | f
  · exact nofun
  · cases kind <;> exact nofun
  · exact nofun

section Perform

variable {i : Invocation} (service : Service σ) (course : Attack.Course) {file : Option File}
  {env : List (String × String)} (scene : Scene σ)

theorem perform_version (asked : i.verb = .version) :
    i.perform service course file env scene = ({ output := release ++ "\n" }, scene) := by
  rw [Invocation.perform, if_pos asked]
  rfl

theorem perform_of_error (other : i.verb ≠ .version) {e : LoadError}
    (refused : load file env = .error e) :
    i.perform service course file env scene = ({ ending := loadEnding e }, scene) := by
  rw [Invocation.perform, if_neg other, refused]
  rfl

theorem perform_of_ok (other : i.verb ≠ .version) {config : Config}
    (loaded : load file env = .ok config) :
    i.perform service course file env scene =
      i.verb.perform service course (env.lookup logVariable) config scene := by
  rw [Invocation.perform, if_neg other, loaded]

variable (setting : Option String) (config : Config)

theorem perform_healthcheck :
    Verb.healthcheck.perform service course setting config scene =
      (withLog config setting (checkHealth service config scene).1,
        (checkHealth service config scene).2) := by
  rcases checked : checkHealth service config scene with ⟨recorded, after⟩
  simp only [Verb.perform, bind, StateT.bind, checked]
  rfl

theorem perform_run :
    Verb.run.perform service course setting config scene =
      (withLog config setting (runTest service course config scene).1,
        (runTest service course config scene).2) := by
  rcases tested : runTest service course config scene with ⟨recorded, after⟩
  simp only [Verb.perform, bind, StateT.bind, tested]
  rfl

/-- What a command asks for once its settings are loaded. -/
theorem requests_of_loaded (verb : Verb) :
    let done := verb.perform service course setting config scene
    ∃ asked, Shows (verb.perform service.recorded course setting config scene.recorded) done asked ∧
      (verb = .profiles → asked = []) ∧
      (verb = .healthcheck → asked = Preflight.requests config.host ∧
        (done.1.ending = .success ↔ health service config scene = .ok ())) ∧
      (verb = .run → ∃ feed,
        asked = (if config.preflight then Preflight.requests config.host else []) ++ feed ∧
        FeedRequests config (health service config scene) done.1.ending feed) := by
  cases verb with
  | version => exact ⟨[], .nothing _ scene, nofun, nofun, nofun⟩
  | profiles => exact ⟨[], .nothing _ scene, fun _ => rfl, nofun, nofun⟩
  | healthcheck =>
    rw [perform_healthcheck, perform_healthcheck]
    refine ⟨_, (checkHealth_shows service config scene).map _, nofun, fun _ => ⟨rfl, ?_⟩, nofun⟩
    rw [withLog, checkHealth_ending, Ending.ofCheck_eq_success_iff]
  | run =>
    rw [perform_run, perform_run]
    obtain ⟨feed, recorded, asks⟩ := runTest_shows service course scene
    exact ⟨_, recorded.map _, nofun, nofun, fun _ => ⟨feed, rfl, asks⟩⟩

end Perform

/-- Whatever the file, the environment and the answers of the service are, and whatever course a
load test takes, a recorder in front of the service changes nothing about a command and shows what
it asks for.  The version is printed without a look at the settings.  Any other command fails before
it has asked for anything if the settings cannot be loaded.  Profiles are printed without a request.
The health check asks for the health of the host and succeeds exactly if the host is healthy.  A
load test asks for that first, if its settings say so, and for nothing else if the host is not
healthy.  Then it asks for the feed, unless it is refused. -/
theorem requests_of_command (i : Invocation) (service : Service σ) (course : Attack.Course)
    (file : Option File) (env : List (String × String)) (scene : Scene σ) :
    let done := i.perform service course file env scene
    ∃ asked, Shows (i.perform service.recorded course file env scene.recorded) done asked ∧
      (i.verb = .version → done = ({ output := release ++ "\n" }, scene) ∧ asked = []) ∧
      (i.verb ≠ .version → ∀ e, load file env = .error e →
        done.1 = { ending := loadEnding e } ∧ done.1.ending.exitCode ≠ 0 ∧ asked = []) ∧
      ∀ config, load file env = .ok config →
        (i.verb = .profiles → asked = []) ∧
        (i.verb = .healthcheck → asked = Preflight.requests config.host ∧
          (done.1.ending = .success ↔ health service config scene = .ok ())) ∧
        (i.verb = .run → ∃ feed,
          asked = (if config.preflight then Preflight.requests config.host else []) ++ feed ∧
          FeedRequests config (health service config scene) done.1.ending feed) := by
  obtain ⟨path, verb⟩ := i
  intro done
  by_cases version : verb = .version
  · subst version
    have plain : done = ({ output := release ++ "\n" }, scene) :=
      perform_version service course scene rfl
    rw [plain, perform_version service.recorded course scene.recorded rfl]
    refine ⟨[], .nothing _ scene, fun _ => ⟨rfl, rfl⟩, fun other => absurd rfl other, ?_⟩
    exact fun _ _ => ⟨nofun, nofun, nofun⟩
  cases loaded : load file env with
  | error e =>
    have plain : done = ({ ending := loadEnding e }, scene) :=
      perform_of_error service course scene version loaded
    rw [plain, perform_of_error service.recorded course scene.recorded version loaded]
    refine ⟨[], .nothing _ scene, fun same => absurd same version, fun _ _ same => ?_, ?_⟩
    · obtain rfl := Except.error.inj same
      exact ⟨rfl, loadEnding_exitCode e, rfl⟩
    · intro config same
      cases same
  | ok config =>
    have plain : done = verb.perform service course (env.lookup logVariable) config scene :=
      perform_of_ok service course scene version loaded
    rw [plain, perform_of_ok service.recorded course scene.recorded version loaded]
    obtain ⟨asked, same, commands⟩ :=
      requests_of_loaded service course scene (env.lookup logVariable) config verb
    refine ⟨asked, same, fun same => absurd same version, nofun, ?_⟩
    rintro _ ⟨⟩
    exact commands

/-- Without a file and without variables the defaults are loaded. -/
theorem load_nothing : load none [] = .ok {} := by
  have listed : Samples.default.fallbackPostId ∈
      Samples.default.pubkeys ++ Samples.default.postIds :=
    List.mem_append_right _ List.mem_cons_self
  have valid : ({} : Config).validate = .ok () := withFallback_valid (default_hex _ listed)
  exact Sources.load_of_config (a := ⟨none, .dict .defaults [], [], rfl⟩) config_defaults valid

/-- Two visitors who take turns in a test that breaks in the end. -/
def twoVisitors : Attack.Course where
  turns _ _ :=
    [⟨0, 9, .startSession⟩, ⟨1, 9, .startSession⟩, ⟨1, 90000, .run .viewPostDetails⟩,
     ⟨0, 90001, .run .rapidPagination⟩, ⟨1, 90002, .run .viewPostDetails⟩]
  failure := some ["no space left on device"]

/-- An unhealthy host is asked for its health by a load test, and for nothing else; a healthy one
is asked for what the visitors do after that. -/
theorem requests_of_command_unavailable :
    let unhealthy : Scene Script :=
      { words := .cyclic [], service := { cues := [.respond { status := 503 }] } }
    let healthy : Scene Script := { words := .cyclic [], service := {} }
    let test : Invocation := { verb := .run }
    let asked (scene : Scene Script) : List Url :=
      (test.perform Script.service.recorded twoVisitors none [] scene.recorded).2.service.started
    load none [] = .ok {} ∧
      (test.perform Script.service twoVisitors none [] unhealthy).1.ending =
        .failure "Bad Status: 503 Service Unavailable" [] ∧
      asked unhealthy =
        [{ scheme := "http", authority := some "127.0.0.1:8080", path := "/health" }] ∧
      (asked healthy).map (·.path) =
        ["/health", "/get-post-details", "/get-posts-watching", "/get-posts-watching",
         "/get-posts-watching", "/get-post-details"] := by
  intro unhealthy healthy test asked
  have refused : health Script.service {} unhealthy = .error (.status 503) := by decide +kernel
  have one : Preflight.requests ({} : Config).host =
      [{ scheme := "http", authority := some "127.0.0.1:8080", path := "/health" }] := by
    decide +kernel
  obtain ⟨_, same, -, -, loaded⟩ :=
    requests_of_command test Script.service twoVisitors none [] unhealthy
  obtain ⟨feed, parts, asks⟩ := (loaded {} load_nothing).2.2 rfl
  obtain ⟨ended, none_asked⟩ := asks.unhealthy rfl _ refused
  refine ⟨load_nothing, ended, same.asked.trans ?_, ?_⟩
  · rw [parts, none_asked, List.append_nil, ← one]
    rfl
  · have other : test.verb ≠ .version := nofun
    simp only [asked]
    rw [perform_of_ok Script.service.recorded twoVisitors healthy.recorded other load_nothing,
      perform_run]
    decide +kernel

end FeedTraffic.Command
