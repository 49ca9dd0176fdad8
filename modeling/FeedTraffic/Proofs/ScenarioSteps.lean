import FeedTraffic.Proofs.Scenarios
import Mathlib.Data.List.Forall2

/-!
# The steps of scenarios

A scenario of a profile that takes part has everything the profile has: its name, its weight, its
pause, and behind the start of the session one step for each task.  Only a pause can keep such a
profile from having one, and what decides are whole milliseconds.
-/

namespace FeedTraffic.Time.Duration

def inNanos (d : Duration) : Nat := d.seconds * 10 ^ 9 + d.nanos

theorem millis_eq (d : Duration) : d.millis = d.inNanos / 10 ^ 6 := by
  rw [millis, inNanos]
  omega

end FeedTraffic.Time.Duration

namespace FeedTraffic.User

/-- A step that does a task, under its name and with its weight. -/
structure Step.Does (step : Step) (task : Task) : Prop where
  name : step.name = task.recipe.name
  weight : step.weight = task.weight
  ordinary : step.onStart = false
  action : step.action = .run task.recipe

/-- A scenario with all that a profile has. -/
structure Scenario.Carries (s : Scenario) (p : Profile) : Prop where
  name : s.name = p.name
  weight : s.weight = p.weight
  wait : s.wait = p.wait
  /-- First and only once the session is started; then there is a step for every task, in order. -/
  steps : ∃ start rest, s.steps = start :: rest ∧ start.name = "start_session" ∧
    start.onStart = true ∧ start.action = .startSession ∧ List.Forall₂ Step.Does rest p.tasks

theorem Roster.weights_of_selected {r : Roster} {followingFeed : Bool} {p : Profile}
    (selected : p ∈ r.selected followingFeed) : 0 < p.weight ∧ ∀ t ∈ p.tasks, 0 < t.weight := by
  obtain ⟨e, candidate, part, rfl⟩ := Roster.mem_selected.mp selected
  have made := Roster.candidates_wellMade e candidate
  exact ⟨(Roster.weight_configure_pos made e.1).mpr part.2, made.tasks⟩

namespace Scenario

theorem does_taskStep (t : Task) : (taskStep t).Does t := ⟨rfl, rfl, rfl, rfl⟩

theorem carries_of_tasks (p : Profile) :
    Carries ⟨p.name, p.weight, p.wait, startStep :: p.tasks.map taskStep⟩ p where
  name := rfl
  weight := rfl
  wait := rfl
  steps := by
    refine ⟨startStep, p.tasks.map taskStep, rfl, rfl, rfl, rfl, ?_⟩
    rw [List.forall₂_map_left_iff, List.forall₂_same]
    exact fun t _ => does_taskStep t

end Scenario

end FeedTraffic.User

namespace FeedTraffic.Settings.Config

open FeedTraffic.User

/-- A profile that takes part is refused a scenario exactly if its shortest pause has more whole
milliseconds than its longest, and always for its pause.  Otherwise there is one that carries the
whole profile. -/
theorem scenario_of_enabled {c : Config} {ps : List Profile}
    (found : c.profiles.enabled c.followingFeed = .ok ps) {p : Profile} (member : p ∈ ps) :
    (∀ fault, Scenario.ofProfile p = .error fault ↔
      fault = .wait ∧ p.wait.max.inNanos / 10 ^ 6 < p.wait.min.inNanos / 10 ^ 6) ∧
    (p.wait.min.inNanos / 10 ^ 6 ≤ p.wait.max.inNanos / 10 ^ 6 →
      ∃ s, Scenario.ofProfile p = .ok s ∧ s.Carries p) := by
  obtain ⟨rfl, -⟩ := Roster.enabled_eq_ok.mp found
  obtain ⟨weight, tasks⟩ := Roster.weights_of_selected member
  rw [Scenario.ofProfile_eq weight tasks, ← Time.Duration.millis_eq, ← Time.Duration.millis_eq]
  by_cases ordered : p.wait.isOrdered = true
  · have bounds := p.wait.isOrdered_iff.mp ordered
    rw [if_pos ordered]
    constructor
    · intro fault
      exact iff_of_false nofun fun both => absurd both.2 (Nat.not_lt_of_le bounds)
    · intro _
      exact ⟨_, rfl, Scenario.carries_of_tasks p⟩
  · have bounds := mt p.wait.isOrdered_iff.mpr ordered
    rw [if_neg ordered]
    constructor
    · intro fault
      rw [Except.error.injEq, eq_comm, and_iff_left (Nat.lt_of_not_le bounds)]
    · intro inOrder
      exact absurd inOrder bounds

/-- A pause that is out of order by less than a millisecond is no obstacle; one that is out of order
by a second is. -/
theorem scenario_of_enabled_pauses :
    let c : Config :=
      { profiles :=
          { api := { weight := some 5, wait := some ⟨⟨1, 999999, by decide⟩, ⟨1, 0, by decide⟩⟩ }
            heavy := { wait := some (.ofMillis 2000 1000) } } }
    let ps := c.profiles.selected c.followingFeed
    let api := (Profile.api false).configure c.profiles.api
    let heavy := (Profile.heavy false).configure c.profiles.heavy
    c.profiles.enabled c.followingFeed = .ok ps ∧ api ∈ ps ∧ heavy ∈ ps ∧
      (∃ s, Scenario.ofProfile api = .ok s ∧ s.Carries api) ∧
      Scenario.ofProfile heavy = .error .wait := by
  intro c ps api heavy
  have found : c.profiles.enabled c.followingFeed = .ok ps :=
    Roster.enabled_eq_ok.mpr ⟨rfl, by decide⟩
  have first : api ∈ ps := by decide
  have second : heavy ∈ ps := by decide
  refine ⟨found, first, second, ?_, ?_⟩
  · exact (scenario_of_enabled found first).2 (by decide)
  · exact ((scenario_of_enabled found second).1 .wait).mpr ⟨rfl, by decide⟩

end FeedTraffic.Settings.Config
