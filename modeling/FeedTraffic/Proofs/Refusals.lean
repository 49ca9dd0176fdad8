import FeedTraffic.Proofs.Visitors
import FeedTraffic.Traffic.Attack

/-!
# Samples over the load tests of a process

The samples are put in before anything that can be refused, and visitors only look at them.  So the
set that a process is left with is the first that was put in, and it makes no difference whether
the load test that did so was refused.
-/

namespace FeedTraffic.Traffic

open FeedTraffic.Feed FeedTraffic.Http FeedTraffic.Log FeedTraffic.Settings FeedTraffic.Stateful
open FeedTraffic.User

variable {σ : Type}

/-! ## Visitors -/

namespace Visitor

/-- The samples after something that begins a session first if there is none. -/
theorem store_of_session {α : Type} {c : StateM (Visitor σ) α}
    (begins : ∀ v, v.session = none → c v = c v.begun)
    (go_on : ∀ v s, v.session = some s → (c v).2.store = ⟨some v.store.view⟩) (v : Visitor σ) :
    (c v).2.store = ⟨some v.store.view⟩ := by
  cases known : v.session with
  | none =>
    rw [begins v known]
    exact go_on v.begun _ rfl
  | some s => exact go_on v s known

theorem prepare_store (now : Nat) (recipe : Recipe) (v : Visitor σ) :
    (prepare now recipe v).2.store = ⟨some v.store.view⟩ := by
  apply store_of_session
  · exact fun v absent => prepare_of_none now recipe absent
  · exact fun v s known => congrArg (·.2.store) (prepare_of_some now recipe known)

theorem perform_store (site : Site σ) (now : Nat) (recipe : Recipe) (v : Visitor σ) :
    (perform site now recipe v).2.store = ⟨some v.store.view⟩ := by
  apply store_of_session
  · exact fun v absent => perform_of_none site now recipe absent
  · exact fun v s known => congrArg (·.2.store) (perform_of_some site now recipe known)

theorem recount_store (site : Site σ) (now : Nat) (action : Action) (v : Visitor σ) :
    (recount site now action v).2.store = ⟨some v.store.view⟩ := by
  cases action with
  | startSession => exact congrArg (·.2.store) (beginSession_apply v)
  | run recipe => exact perform_store site now recipe v

end Visitor

namespace Attack

theorem attempt_run (site : Site σ) (now : Nat) (recipe : Recipe) (v : Visitor σ) :
    attempt site now (.run recipe) v =
      if site.base.isOpaque then (([], []), (Visitor.prepare now recipe v).2)
      else Visitor.recount site now (.run recipe) v := by
  rw [attempt]
  split <;> rfl

theorem attempt_store (site : Site σ) (now : Nat) (action : Action) (v : Visitor σ) :
    (attempt site now action v).2.store = ⟨some v.store.view⟩ := by
  cases action with
  | startSession => exact Visitor.recount_store site now .startSession v
  | run recipe =>
    rw [attempt_run]
    split
    · exact Visitor.prepare_store now recipe v
    · exact Visitor.recount_store site now (.run recipe) v

def Holds (kept : Samples) (scene : Scene σ) : Prop := scene.store = ⟨some kept⟩

theorem takeTurn_holds (kept : Samples) (site : Site σ) (turn : Turn) :
    Ensures (fun crowd : Crowd σ => Holds kept crowd.toScene) (takeTurn site turn)
      fun _ crowd => Holds kept crowd.toScene := by
  intro crowd holds
  have left := attempt_store site turn.now turn.action (crowd.visitor turn.visitor)
  have view : (crowd.visitor turn.visitor).store = ⟨some kept⟩ := holds
  rwa [view] at left

theorem visits_holds (kept : Samples) (site : Site σ) (turns : List Turn) :
    Ensures (Holds kept) (visits site turns) fun _ => Holds kept := by
  intro scene holds
  exact Ensures.mapM_keeps (takeTurn_holds kept site) turns { toScene := scene } holds

/-! ## One load test -/

theorem install_scene (config : Config) (scene : Scene σ) :
    (install config scene).2 =
      { scene with store := ⟨some (scene.store.installed.getD config.samples)⟩ } := by
  rw [← SampleStore.install_snd]
  simp only [install, bind, StateT.bind, get, getThe, MonadStateOf.get, StateT.get, pure]
  by_cases same : (scene.store.install config.samples).1 = true <;> simp only [same] <;> rfl

section Run

variable (service : Service σ) (course : Course) {config : Config} (scene : Scene σ)

/-- A load test that is refused has done nothing but put in the samples. -/
theorem run_of_error {r : Refusal} (refused : (plan config).2 = .error r) :
    (run service course config scene).1.2 = .error (.refused r) ∧
      (run service course config scene).2 = (install config scene).2 := by
  rcases planned : plan config with ⟨records, found⟩
  obtain rfl : found = .error r := (congrArg Prod.snd planned).symm.trans refused
  simp only [run, bind, StateT.bind, planned]
  exact ⟨rfl, rfl⟩

/-- Any other is made up of visits that begin there, and it may break but is not refused. -/
theorem run_of_ok {ss : List Scenario} {url : Url} (found : (plan config).2 = .ok (ss, url)) :
    (∀ r, (run service course config scene).1.2 ≠ .error (.refused r)) ∧
      (run service course config scene).2 =
        (visits (site service url) (course.turns config ss) (install config scene).2).2 := by
  rcases planned : plan config with ⟨records, way⟩
  obtain rfl : way = .ok (ss, url) := (congrArg Prod.snd planned).symm.trans found
  simp only [run, bind, StateT.bind, planned]
  cases course.failure with
  | none => exact ⟨nofun, rfl⟩
  | some causes => exact ⟨nofun, rfl⟩

/-- Only the settings decide whether a load test is refused. -/
theorem run_refused_iff {r : Refusal} :
    (run service course config scene).1.2 = .error (.refused r) ↔ (plan config).2 = .error r := by
  constructor
  · intro refused
    cases planned : (plan config).2 with
    | ok way => exact absurd refused ((run_of_ok service course scene planned).1 r)
    | error other =>
      obtain ⟨ended, -⟩ := run_of_error service course scene planned
      cases ended.symm.trans refused
      rfl
  · exact fun refused => (run_of_error service course scene refused).1

variable (config)

/-- However a load test ends, it leaves the samples that were there, or its own if there were
none. -/
theorem run_store :
    (run service course config scene).2.store =
      ⟨some (scene.store.installed.getD config.samples)⟩ := by
  have start : (install config scene).2.store =
      ⟨some (scene.store.installed.getD config.samples)⟩ :=
    congrArg Scene.store (install_scene config scene)
  cases planned : (plan config).2 with
  | error r =>
    rw [(run_of_error service course scene planned).2]
    exact start
  | ok way =>
    rw [(run_of_ok service course scene planned).2]
    exact visits_holds _ (site service way.2) (course.turns config way.1) _ start

/-- The samples that its visitors get. -/
theorem run_view :
    (run service course config scene).2.store.view =
      scene.store.installed.getD config.samples := by
  rw [run_store]
  rfl

/-! ## Load tests one after another -/

def runs (tests : List (Course × Config)) :
    StateM (Scene σ) (List (List Record × Except Fault Totals)) :=
  tests.mapM fun (course, config) => run service course config

/-- In the end there are the samples of before or else those of the first load test, whatever
became of it. -/
theorem runs_installed (tests : List (Course × Config)) :
    (runs service tests scene).2.store.installed =
      scene.store.installed.or (tests.head?.map (·.2.samples)) := by
  induction tests generalizing scene with
  | nil => exact Option.or_none.symm
  | cons test tests ih =>
    have first := run_store service test.1 test.2 scene
    have rest := ih (run service test.1 test.2 scene).2
    rw [first, Option.some_or] at rest
    rw [runs, mapM_cons_apply]
    refine rest.trans ?_
    cases scene.store.installed <;> rfl

end Run

/-- A load test that is refused, for whatever reason, changes nothing but the samples, and those
only if there were none: then it leaves its own.  The samples are the same as before if, and only
if, there were some.  A later load test then gets its own samples whenever it would have got them
without the refused one, unless there were no samples before and those of the two differ. -/
theorem refused_run_keeps_samples_iff {service : Service σ} {course : Course} {config : Config}
    {scene : Scene σ} {refusal : Refusal}
    (refused : (run service course config scene).1.2 = .error (.refused refusal)) :
    let left := (run service course config scene).2
    left = { scene with store := ⟨some (scene.store.installed.getD config.samples)⟩ } ∧
    (left.store = scene.store ↔ scene.store.installed ≠ none) ∧
    ∀ (later : Course) (corrected : Config),
      let used (start : Scene σ) : Samples := (run service later corrected start).2.store.view
      (used scene = corrected.samples → used left = corrected.samples) ↔
        (scene.store.installed ≠ none ∨ config.samples = corrected.samples) := by
  intro left
  have same :
      left = { scene with store := ⟨some (scene.store.installed.getD config.samples)⟩ } := by
    have planned := (run_refused_iff service course scene).mp refused
    exact (run_of_error service course scene planned).2.trans (install_scene config scene)
  refine ⟨same, ?_, ?_⟩
  · rw [same, ← SampleStore.install_snd]
    exact SampleStore.install_snd_eq_iff config.samples scene.store
  · intro later corrected used
    have seen (start : Scene σ) : used start = start.store.installed.getD corrected.samples :=
      run_view service later corrected start
    rw [seen, seen, same]
    cases installed : scene.store.installed <;> simp

/-- A load test without profiles that is refused when there are samples already leaves everything
as it was. -/
theorem refused_run_keeps_samples_iff_installed :
    let off : Overrides := { enabled := false }
    let roster : Roster :=
      { api := off, heavy := off, realistic := off, website := off, social := off }
    let config : Config := { profiles := roster }
    let kept : Samples := { pubkeys := ["02aa"], postIds := ["ff00"], fallbackPostId := "ff00" }
    let scene : Scene Unit := { store := ⟨some kept⟩, words := .cyclic [], service := () }
    let course : Course := .round 0
    let left := (run .unreachable course config scene).2
    (run .unreachable course config scene).1.2 = .error (.refused .noProfiles) ∧ left = scene := by
  intro off roster config kept scene course left
  have refused : (run .unreachable course config scene).1.2 = .error (.refused .noProfiles) := rfl
  exact ⟨refused, (refused_run_keeps_samples_iff refused).1⟩

/-- An accepted configuration without profiles is refused in a process that has no samples yet.
Its samples stay, and a later load test with a configuration of its own, which would have put in
the built-in samples, gets those of the refused one. -/
theorem refused_run_puts_samples_in :
    let off : Overrides := { enabled := false }
    let roster : Roster :=
      { api := off, heavy := off, realistic := off, website := off, social := off }
    let own : Samples := { pubkeys := ["02aa"], postIds := ["ff00"], fallbackPostId := "ff00" }
    let config : Config := { samples := own, profiles := roster }
    let corrected : Config := {}
    let scene : Scene Unit := { words := .cyclic [], service := () }
    let course : Course := .round 0
    let left := (run .unreachable course config scene).2
    let used (start : Scene Unit) : Samples :=
      (run .unreachable course corrected start).2.store.view
    config.validate = .ok () ∧
      (run .unreachable course config scene).1.2 = .error (.refused .noProfiles) ∧
      left.store ≠ scene.store ∧ used scene = corrected.samples ∧
      used left = own ∧ own ≠ corrected.samples := by
  intro off roster own config corrected scene course left used
  have seen (start : Scene Unit) : used start = start.store.installed.getD corrected.samples :=
    run_view .unreachable course corrected start
  refine ⟨by decide +kernel, rfl, nofun, seen scene, seen left, by decide⟩

end Attack

end FeedTraffic.Traffic
