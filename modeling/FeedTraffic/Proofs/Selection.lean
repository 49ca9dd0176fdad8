import FeedTraffic.Proofs.Scenarios
import Mathlib.Data.List.Forall2

/-!
# The selection of profiles

Every profile has a section of the settings of its own.  It takes part if its section is switched on
and its weight, given there or built in, is not zero.  The profiles that take part come in a fixed
order.  A section has no influence on other profiles, and the switch for the following feed has none
on which profiles take part.
-/

namespace FeedTraffic.User

open FeedTraffic.Settings FeedTraffic.Time

inductive Kind where
  | api
  | heavy
  | realistic
  | website
  | social
  deriving DecidableEq, Repr

namespace Kind

def ordered : List Kind := [api, heavy, realistic, website, social]

theorem mem_ordered (k : Kind) : k ∈ ordered := by cases k <;> decide

def name : Kind → String
  | api => "ApiUser"
  | heavy => "HeavyLoadUser"
  | realistic => "RealisticUser"
  | website => "WebsiteUser"
  | social => "SocialUser"

theorem name_injective {k l : Kind} (same : k.name = l.name) : k = l := by
  revert same
  cases k <;> cases l <;> decide

def builtIn (followingFeed : Bool) : Kind → Profile
  | api => .api followingFeed
  | heavy => .heavy followingFeed
  | realistic => .realistic followingFeed
  | website => .website followingFeed
  | social => .social followingFeed

def settings (r : Roster) : Kind → Overrides
  | api => r.api
  | heavy => r.heavy
  | realistic => r.realistic
  | website => r.website
  | social => r.social

def put (o : Overrides) (r : Roster) : Kind → Roster
  | api => { r with api := o }
  | heavy => { r with heavy := o }
  | realistic => { r with realistic := o }
  | website => { r with website := o }
  | social => { r with social := o }

theorem settings_put_of_ne {k l : Kind} (other : l ≠ k) (o : Overrides) (r : Roster) :
    l.settings (k.put o r) = l.settings r := by
  cases k <;> cases l <;> first | rfl | exact absurd rfl other

variable (c : Config) (k : Kind)

def weight : Nat := (k.settings c.profiles).weight.getD (k.builtIn c.followingFeed).weight

def wait : WaitTime := (k.settings c.profiles).wait.getD (k.builtIn c.followingFeed).wait

def TakesPart : Prop := (k.settings c.profiles).enabled = true ∧ k.weight c ≠ 0

instance : DecidablePred (TakesPart c) := fun _ => inferInstanceAs (Decidable (_ ∧ _))

def profile : Profile := ⟨k.name, k.weight c, k.wait c, (k.builtIn c.followingFeed).tasks⟩

theorem name_builtIn (followingFeed : Bool) : (k.builtIn followingFeed).name = k.name := by
  cases k <;> rfl

theorem configure_builtIn :
    (k.builtIn c.followingFeed).configure (k.settings c.profiles) = k.profile c := by
  cases k <;> rfl

theorem tasks_ne_nil (followingFeed : Bool) : (k.builtIn followingFeed).tasks ≠ [] := by
  cases k <;> cases followingFeed <;> decide

/-- A profile has tasks of its own, so only the switch and the weight decide. -/
theorem takesPart_eq :
    (decide (0 < (k.profile c).weight) && !(k.profile c).tasks.isEmpty &&
      (k.settings c.profiles).enabled) = decide (k.TakesPart c) := by
  have busy : (k.profile c).tasks.isEmpty = false :=
    List.isEmpty_eq_false_iff.mpr (k.tasks_ne_nil c.followingFeed)
  have share : 0 < (k.profile c).weight ↔ k.weight c ≠ 0 := Nat.pos_iff_ne_zero
  rw [busy, Bool.eq_iff_iff]
  simp only [Bool.not_false, Bool.and_true, Bool.and_eq_true, decide_eq_true_eq, share]
  exact and_comm

theorem selected_eq :
    c.profiles.selected c.followingFeed = (ordered.filter (TakesPart c)).map (profile c) := by
  have candidates : c.profiles.candidates c.followingFeed =
      ordered.map fun k => (k.settings c.profiles, k.builtIn c.followingFeed) := rfl
  simp only [Roster.selected, candidates, List.filter_map, List.map_map, List.filter_filter]
  refine congrArg₂ List.map (funext (configure_builtIn c)) (List.filter_congr fun k _ => ?_)
  rw [← takesPart_eq, ← configure_builtIn]
  rfl

/-- The profiles that take part, none where there is a refusal. -/
def listed : List Profile :=
  match c.profiles.enabled c.followingFeed with
  | .ok ps => ps
  | .error _ => []

theorem listed_eq : listed c = (ordered.filter (TakesPart c)).map (profile c) := by
  rw [listed, Roster.enabled, selected_eq]
  cases (ordered.filter (TakesPart c)).map (profile c) <;> rfl

/-! ## One section changes -/

theorem takesPart_beside {l : Kind} (other : l ≠ k) (o : Overrides) :
    l.TakesPart { c with profiles := k.put o c.profiles } ↔ l.TakesPart c := by
  rw [TakesPart, weight, settings_put_of_ne other]
  rfl

theorem profile_beside {l : Kind} (other : l ≠ k) (o : Overrides) :
    l.profile { c with profiles := k.put o c.profiles } = l.profile c := by
  rw [profile, weight, wait, settings_put_of_ne other]
  rfl

theorem listed_beside (o : Overrides) :
    (listed { c with profiles := k.put o c.profiles }).filter (·.name ≠ k.name) =
      (listed c).filter (·.name ≠ k.name) := by
  have named (l : Kind) : l.name ≠ k.name ↔ l ≠ k := not_congr ⟨name_injective, congrArg name⟩
  have others (b : Config) : (listed b).filter (·.name ≠ k.name) =
      (ordered.filter fun l => l ≠ k ∧ l.TakesPart b).map (profile b) := by
    rw [listed_eq, List.filter_map, List.filter_filter]
    refine congrArg _ (List.filter_congr fun l _ => ?_)
    rw [Bool.decide_and]
    exact congrArg (· && _) (decide_eq_decide.mpr (named l))
  have same :
      (ordered.filter fun l => l ≠ k ∧ l.TakesPart { c with profiles := k.put o c.profiles }) =
        ordered.filter fun l => l ≠ k ∧ l.TakesPart c :=
    List.filter_congr fun l _ =>
      decide_eq_decide.mpr (and_congr_right fun other => takesPart_beside c k other o)
  rw [others, others, same]
  refine List.map_congr_left fun l member => ?_
  have other := (of_decide_eq_true (List.mem_filter.mp member).2).1
  exact profile_beside c k other o

/-! ## The following feed is switched on -/

/-- With the following feed a profile has the same name, weight and pause.  One more task comes
first and browses that feed, but the social profile has none. -/
structure GainsFeed (off on : Profile) : Prop where
  name : on.name = off.name
  weight : on.weight = off.weight
  wait : on.wait = off.wait
  social : off.name = "SocialUser" → on.tasks = off.tasks
  others : off.name ≠ "SocialUser" →
    ∃ task : Task, task.recipe.endpoint = .contentsFollowing ∧ on.tasks = task :: off.tasks

theorem builtIn_gainsFeed : GainsFeed (k.builtIn false) (k.builtIn true) := by
  have gains {off on : Profile} {task : Task} (name : on.name = off.name)
      (weight : on.weight = off.weight) (wait : on.wait = off.wait)
      (other : off.name ≠ "SocialUser") (browses : task.recipe.endpoint = .contentsFollowing)
      (first : on.tasks = task :: off.tasks) : GainsFeed off on :=
    ⟨name, weight, wait, fun same => absurd same other, fun _ => ⟨task, browses, first⟩⟩
  cases k with
  | social => exact ⟨rfl, rfl, rfl, fun _ => rfl, fun other => absurd rfl other⟩
  | api => exact gains rfl rfl rfl (by decide) rfl rfl
  | heavy => exact gains rfl rfl rfl (by decide) rfl rfl
  | realistic => exact gains rfl rfl rfl (by decide) rfl rfl
  | website => exact gains rfl rfl rfl (by decide) rfl rfl

theorem profile_gainsFeed :
    GainsFeed (k.profile { c with followingFeed := false })
      (k.profile { c with followingFeed := true }) := by
  have made := k.builtIn_gainsFeed
  have name := k.name_builtIn false
  exact {
    name := rfl
    weight := congrArg (k.settings c.profiles).weight.getD made.weight
    wait := congrArg (k.settings c.profiles).wait.getD made.wait
    social := fun same => made.social (name.trans same)
    others := fun other => made.others fun same => other (name.symm.trans same) }

theorem takesPart_feed (b : Bool) :
    k.TakesPart { c with followingFeed := b } ↔ k.TakesPart c := by
  have same : (k.builtIn b).weight = (k.builtIn c.followingFeed).weight := by
    cases k <;> rfl
  rw [TakesPart, weight, same]
  rfl

theorem listed_feed :
    List.Forall₂ GainsFeed (listed { c with followingFeed := false })
      (listed { c with followingFeed := true }) := by
  have same (b : Bool) : (ordered.filter (TakesPart { c with followingFeed := b })) =
      ordered.filter (TakesPart c) :=
    List.filter_congr fun k _ => decide_eq_decide.mpr (k.takesPart_feed c b)
  rw [listed_eq, listed_eq, same false, same true, List.forall₂_map_left_iff,
    List.forall₂_map_right_iff, List.forall₂_same]
  exact fun k _ => k.profile_gainsFeed c

end Kind

end FeedTraffic.User

namespace FeedTraffic.Settings.Config

open FeedTraffic.User

/-- The profiles of a configuration are those of the kinds that take part, in their fixed order and
each once, with the weights and pauses that count; without any there is a refusal.  Another section
for one kind leaves the profiles of all other kinds as they are.  Switching the following feed on
changes only the tasks. -/
theorem selection_as_configured (c : Config) :
    (∃ kinds : List Kind, kinds.Sublist Kind.ordered ∧ (∀ k, k ∈ kinds ↔ k.TakesPart c) ∧
      c.profiles.enabled c.followingFeed =
        if kinds = [] then .error .mk else .ok (kinds.map (Kind.profile c))) ∧
    (∀ (k : Kind) (o : Overrides),
      (Kind.listed { c with profiles := k.put o c.profiles }).filter (·.name ≠ k.name) =
        (Kind.listed c).filter (·.name ≠ k.name)) ∧
    List.Forall₂ Kind.GainsFeed (Kind.listed { c with followingFeed := false })
      (Kind.listed { c with followingFeed := true }) := by
  refine ⟨⟨Kind.ordered.filter (Kind.TakesPart c), List.filter_sublist, ?_, ?_⟩,
    Kind.listed_beside c, Kind.listed_feed c⟩
  · intro k
    rw [List.mem_filter, decide_eq_true_iff, and_iff_right k.mem_ordered]
  · rw [Roster.enabled, Kind.selected_eq]
    cases Kind.ordered.filter (Kind.TakesPart c) <;> rfl

end FeedTraffic.Settings.Config
