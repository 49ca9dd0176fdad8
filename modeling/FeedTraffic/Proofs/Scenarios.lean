import FeedTraffic.Settings.Config
import FeedTraffic.User.Scenario
import Mathlib.Data.List.Basic

/-!
# Scenarios of the profiles that take part

Every profile is made with a share of the users, a pause whose bounds are in order and tasks that
have some weight each.  Settings can change the share and the pause.  Without a share a profile is
left out at once; a pause out of order shows only when the scenario is made, and the check of a
configuration does not look for one.
-/

namespace FeedTraffic.Time.WaitTime

theorem isOrdered_iff (w : WaitTime) : w.isOrdered = true ↔ w.min.millis ≤ w.max.millis :=
  decide_eq_true_iff

end FeedTraffic.Time.WaitTime

namespace FeedTraffic.User

/-! ## Profiles as they are made -/

/-- What every profile has as long as there are no settings. -/
structure Profile.WellMade (p : Profile) : Prop where
  weight : 0 < p.weight
  wait : p.wait.isOrdered = true
  busy : p.tasks ≠ []
  tasks : ∀ t ∈ p.tasks, 0 < t.weight
  /-- The weights of the tasks can be added up. -/
  total : p.totalTaskWeight ≤ maxWeight

def Roster.sections (r : Roster) : List Overrides :=
  [r.api, r.heavy, r.realistic, r.website, r.social]

/-- Settings that keep a profile: it is switched on and its share is not nothing. -/
def Overrides.TakesPart (o : Overrides) : Prop := o.enabled = true ∧ o.weight ≠ some 0

namespace Roster

variable {r : Roster} {followingFeed : Bool}

theorem map_candidates (r : Roster) (followingFeed : Bool) :
    (r.candidates followingFeed).map (·.1) = r.sections := rfl

theorem candidates_wellMade : ∀ e ∈ r.candidates followingFeed, e.2.WellMade := by
  simp only [candidates, List.forall_mem_cons]
  cases followingFeed <;> refine ⟨?_, ?_, ?_, ?_, ?_, List.forall_mem_nil _⟩ <;>
    exact ⟨by decide, by decide, by decide, by decide, by decide⟩

/-! ## Profiles that take part -/

theorem weight_configure_pos {p : Profile} (made : p.WellMade) (o : Overrides) :
    0 < (p.configure o).weight ↔ o.weight ≠ some 0 := by
  have weight : (p.configure o).weight = o.weight.getD p.weight := rfl
  rw [weight]
  cases given : o.weight with
  | none => simpa using made.weight
  | some w => simpa using Nat.pos_iff_ne_zero

/-- A profile takes part as its settings say, and with them put in. -/
theorem mem_selected {p : Profile} :
    p ∈ r.selected followingFeed ↔
      ∃ e ∈ r.candidates followingFeed, e.1.TakesPart ∧ e.2.configure e.1 = p := by
  simp only [selected, List.mem_filter, List.mem_map, Bool.and_eq_true, decide_eq_true_eq,
    Bool.not_eq_true', List.isEmpty_eq_false_iff]
  constructor
  · rintro ⟨⟨e, ⟨member, enabled⟩, rfl⟩, weight, -⟩
    have made := candidates_wellMade e member
    exact ⟨e, member, ⟨enabled, (weight_configure_pos made e.1).mp weight⟩, rfl⟩
  · rintro ⟨e, member, ⟨enabled, share⟩, rfl⟩
    have made := candidates_wellMade e member
    exact ⟨⟨e, ⟨member, enabled⟩, rfl⟩, (weight_configure_pos made e.1).mpr share, made.busy⟩

theorem enabled_eq_ok {ps : List Profile} :
    r.enabled followingFeed = .ok ps ↔ r.selected followingFeed = ps ∧ ps ≠ [] := by
  rw [enabled]
  split
  · rename_i empty
    simp only [empty, reduceCtorEq, false_iff]
    rintro ⟨rfl, filled⟩
    exact filled rfl
  · rename_i filled
    simp only [Except.ok.injEq]
    constructor
    · rintro rfl
      exact ⟨rfl, filled⟩
    · exact And.left

end Roster

/-! ## From profiles to scenarios -/

namespace Scenario

def taskStep (t : Task) : Step := ⟨t.recipe.name, t.weight, false, .run t.recipe⟩

theorem mapM_step {tasks : List Task} (weights : ∀ t ∈ tasks, 0 < t.weight) :
    tasks.mapM step = .ok (tasks.map taskStep) := by
  induction tasks with
  | nil => rfl
  | cons t ts ih =>
    obtain ⟨first, later⟩ := List.forall_mem_cons.mp weights
    have made : step t = .ok (taskStep t) := if_neg (Nat.pos_iff_ne_zero.mp first)
    rw [List.mapM_cons, made, ih later]
    rfl

/-- With weights for the profile and all of its tasks, the pause alone decides. -/
theorem ofProfile_eq {p : Profile} (weight : 0 < p.weight)
    (tasks : ∀ t ∈ p.tasks, 0 < t.weight) :
    ofProfile p =
      if p.wait.isOrdered then .ok ⟨p.name, p.weight, p.wait, startStep :: p.tasks.map taskStep⟩
      else .error .wait := by
  have share : ¬p.weight = 0 := Nat.pos_iff_ne_zero.mp weight
  cases ordered : p.wait.isOrdered <;>
    simp [ofProfile, share, ordered, mapM_step tasks, bind, Except.bind, pure, Except.pure, throw,
      throwThe, MonadExceptOf.throw]

theorem exists_ofProfile_iff {p : Profile} (weight : 0 < p.weight)
    (tasks : ∀ t ∈ p.tasks, 0 < t.weight) :
    (∃ s, ofProfile p = .ok s) ↔ p.wait.min.millis ≤ p.wait.max.millis := by
  rw [ofProfile_eq weight tasks, ← p.wait.isOrdered_iff]
  by_cases ordered : p.wait.isOrdered = true <;> simp [ordered]

/-- A profile that takes part has a scenario unless its settings bring a pause out of order. -/
theorem exists_configure_iff {p : Profile} (made : p.WellMade) {o : Overrides}
    (part : o.TakesPart) :
    (∃ s, ofProfile (p.configure o) = .ok s) ↔
      ∀ w ∈ o.wait, w.min.millis ≤ w.max.millis := by
  have share := (Roster.weight_configure_pos made o).mpr part.2
  have wait : (p.configure o).wait = o.wait.getD p.wait := rfl
  rw [exists_ofProfile_iff share made.tasks, wait]
  cases o.wait with
  | none => simpa using p.wait.isOrdered_iff.mp made.wait
  | some w => simp

end Scenario

end FeedTraffic.User

namespace FeedTraffic.Settings.Config

open FeedTraffic.User

/-- Whether a configuration is accepted does not depend on the settings of its profiles, so these
may be any in an accepted one.  All profiles that take part have a scenario exactly if each of them
keeps its own pause or is given one whose bounds are in order, in whole milliseconds. -/
theorem scenarios_iff_pauses_ordered {c : Config} {ps : List Profile}
    (found : c.profiles.enabled c.followingFeed = .ok ps) :
    (∀ roster, ({ c with profiles := roster } : Config).validate = c.validate) ∧
    ((∀ p ∈ ps, ∃ s, Scenario.ofProfile p = .ok s) ↔
      ∀ o ∈ c.profiles.sections, o.enabled = true → o.weight ≠ some 0 →
        ∀ w ∈ o.wait, w.min.millis ≤ w.max.millis) := by
  refine ⟨fun _ => rfl, ?_⟩
  obtain ⟨rfl, -⟩ := Roster.enabled_eq_ok.mp found
  rw [← Roster.map_candidates c.profiles c.followingFeed]
  constructor
  · intro convert o member enabled share
    obtain ⟨e, candidate, rfl⟩ := List.mem_map.mp member
    have made := Roster.candidates_wellMade e candidate
    have selected := Roster.mem_selected.mpr ⟨e, candidate, ⟨enabled, share⟩, rfl⟩
    exact (Scenario.exists_configure_iff made ⟨enabled, share⟩).mp (convert _ selected)
  · intro ordered p member
    obtain ⟨e, candidate, part, rfl⟩ := Roster.mem_selected.mp member
    have made := Roster.candidates_wellMade e candidate
    refine (Scenario.exists_configure_iff made part).mpr ?_
    exact ordered e.1 (List.mem_map_of_mem candidate) part.1 part.2

/-- Bounds that are out of order by less than a millisecond do no harm, nor do any bounds of a
profile that is left out. -/
theorem scenarios_iff_pauses_ordered_same_millis :
    let c : Config :=
      { profiles :=
          { api := { wait := some ⟨⟨1, 999999, by decide⟩, ⟨1, 0, by decide⟩⟩ }
            heavy := { weight := some 0, wait := some (.ofMillis 2000 1000) } } }
    c.profiles.enabled c.followingFeed = .ok (c.profiles.selected c.followingFeed) ∧
      (c.profiles.selected c.followingFeed).map (·.name) =
        ["ApiUser", "RealisticUser", "WebsiteUser"] ∧
      ∀ p ∈ c.profiles.selected c.followingFeed, ∃ s, Scenario.ofProfile p = .ok s := by
  intro c
  have found : c.profiles.enabled c.followingFeed = .ok (c.profiles.selected c.followingFeed) :=
    Roster.enabled_eq_ok.mpr ⟨rfl, by decide⟩
  refine ⟨found, by decide, ?_⟩
  exact (scenarios_iff_pauses_ordered found).2.mpr (by decide)

/-- An accepted configuration with a profile that has no scenario: its shortest pause is longer
than its longest. -/
theorem accepted_without_scenario :
    let c : Config :=
      { samples := { pubkeys := ["02aa"], postIds := ["ff00"], fallbackPostId := "ff00" }
        profiles := { api := { wait := some (.ofMillis 2000 1000) } } }
    c.validate = .ok () ∧
      c.profiles.enabled c.followingFeed = .ok (c.profiles.selected c.followingFeed) ∧
      ∃ p ∈ c.profiles.selected c.followingFeed, Scenario.ofProfile p = .error .wait := by
  intro c
  have found : c.profiles.enabled c.followingFeed = .ok (c.profiles.selected c.followingFeed) :=
    Roster.enabled_eq_ok.mpr ⟨rfl, by decide⟩
  refine ⟨by decide +kernel, found, (Profile.api false).configure c.profiles.api, ?_, ?_⟩
  · exact Roster.mem_selected.mpr ⟨(c.profiles.api, .api false), by decide, ⟨rfl, nofun⟩, rfl⟩
  · exact (Scenario.ofProfile_eq (by decide) (by decide)).trans (if_neg (by decide))

end FeedTraffic.Settings.Config
