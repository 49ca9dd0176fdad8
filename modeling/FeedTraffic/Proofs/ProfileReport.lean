import FeedTraffic.Command.Execute
import FeedTraffic.Proofs.Scenarios

/-!
# The report of the profiles

Weights of profiles are any numbers that the settings give, and they are added up before the first
line of the report.  A chain of additions that each may run over is as good as one look at the
exact sum.  The weights of tasks are fixed, so only the sum over profiles can be too large.
-/

namespace FeedTraffic.User

/-! ## Sums of weights -/

theorem foldlM_add (start : Nat) (ws : List Nat) (small : start ≤ maxWeight) :
    ws.foldlM (fun total w => if total + w ≤ maxWeight then some (total + w) else none) start =
      if start + ws.sum ≤ maxWeight then some (start + ws.sum) else none := by
  induction ws generalizing start with
  | nil => simp [small]
  | cons w ws ih =>
    rw [List.foldlM_cons, List.sum_cons, ← Nat.add_assoc]
    by_cases fits : start + w ≤ maxWeight
    · rw [if_pos fits]
      exact ih (start + w) fits
    · -- what has run over stays too large
      have larger : ¬start + w + ws.sum ≤ maxWeight := by omega
      rw [if_neg fits, if_neg larger]
      rfl

/-- The weights can be added up if, and only if, their exact sum is small enough. -/
theorem sumWeights_eq (ws : List Nat) :
    sumWeights ws = if ws.sum ≤ maxWeight then some ws.sum else none := by
  have sum := foldlM_add 0 ws (Nat.zero_le _)
  rwa [Nat.zero_add] at sum

namespace Profile

theorem totalTaskWeight_pos {p : Profile} (busy : p.tasks ≠ [])
    (weights : ∀ t ∈ p.tasks, 0 < t.weight) : 0 < p.totalTaskWeight := by
  obtain ⟨t, ts, tasks⟩ := List.exists_cons_of_ne_nil busy
  have first : 0 < t.weight := weights t (tasks ▸ List.mem_cons_self)
  rw [totalTaskWeight, tasks, List.map_cons, List.sum_cons]
  omega

/-- Settings leave the tasks alone, and so their weights. -/
theorem WellMade.task_weights {p : Profile} (made : p.WellMade) (o : Overrides) :
    sumWeights ((p.configure o).tasks.map (·.weight)) = some (p.configure o).totalTaskWeight ∧
      0 < (p.configure o).totalTaskWeight := by
  constructor
  · exact (sumWeights_eq _).trans (if_pos made.total)
  · exact totalTaskWeight_pos made.busy made.tasks

end Profile

end FeedTraffic.User

namespace FeedTraffic.Command

open FeedTraffic.Settings FeedTraffic.User

theorem printProfiles_eq {c : Config} {ps : List Profile}
    (found : c.profiles.enabled c.followingFeed = .ok ps) :
    printProfiles c =
      if (ps.map (·.weight)).sum ≤ maxWeight then
        { output := String.join (ps.map (Report.profile (ps.map (·.weight)).sum)) }
      else { ending := .overflow } := by
  rw [printProfiles, found]
  by_cases fits : (ps.map (·.weight)).sum ≤ maxWeight <;>
    simp only [Report.profiles?, sumWeights_eq, fits, if_true, if_false, Option.map_some,
      Option.map_none]

/-- For every configuration with profiles that take part, the weights of the tasks of each of them
can be added up, and no share is a part of nothing.  The report runs over exactly if the weights of
the profiles come to `2 ^ 64` or more.  Otherwise it is printed, and every profile in it is shown
with the exact sum as the total. -/
theorem report_iff_weights_fit {c : Config} {ps : List Profile}
    (found : c.profiles.enabled c.followingFeed = .ok ps) :
    let total := (ps.map (·.weight)).sum
    (∀ p ∈ ps, sumWeights (p.tasks.map (·.weight)) = some p.totalTaskWeight ∧
      0 < p.totalTaskWeight) ∧
    ((printProfiles c).ending ≠ .overflow ↔ total < 2 ^ 64) ∧
    (total < 2 ^ 64 →
      printProfiles c = { output := String.join (ps.map (Report.profile total)) }) := by
  intro total
  have largest : total ≤ maxWeight ↔ total < 2 ^ 64 := by
    have top : maxWeight + 1 = 2 ^ 64 := rfl
    omega
  refine ⟨?_, ?_, ?_⟩
  · intro p member
    obtain ⟨rfl, -⟩ := Roster.enabled_eq_ok.mp found
    obtain ⟨e, candidate, -, rfl⟩ := Roster.mem_selected.mp member
    exact (Roster.candidates_wellMade e candidate).task_weights e.1
  · rw [printProfiles_eq found, ← largest]
    by_cases fits : total ≤ maxWeight <;> simp [total, fits]
  · intro fits
    rw [printProfiles_eq found, if_pos (largest.mpr fits)]

/-- Weights that come to the largest sum there is. -/
theorem report_iff_weights_fit_largest :
    let c : Config := { profiles := { api := { weight := some (2 ^ 64 - 7) } } }
    let ps := c.profiles.selected c.followingFeed
    c.profiles.enabled c.followingFeed = .ok ps ∧ ps.length = 4 ∧
      (ps.map (·.weight)).sum = 2 ^ 64 - 1 ∧ (ps.map (·.weight)).sum < 2 ^ 64 ∧
      printProfiles c =
        { output := String.join (ps.map (Report.profile (ps.map (·.weight)).sum)) } := by
  intro c ps
  have found : c.profiles.enabled c.followingFeed = .ok ps :=
    Roster.enabled_eq_ok.mpr ⟨rfl, by decide⟩
  have fits : (ps.map (·.weight)).sum < 2 ^ 64 := by decide
  exact ⟨found, by decide, by decide, fits, (report_iff_weights_fit found).2.2 fits⟩

/-- An accepted configuration whose report runs over: one profile has the largest weight and others
have some. -/
theorem accepted_report_overflows :
    let c : Config :=
      { samples := { pubkeys := ["02aa"], postIds := ["ff00"], fallbackPostId := "ff00" }
        profiles := { api := { weight := some (2 ^ 64 - 1) } } }
    c.validate = .ok () ∧
      c.profiles.enabled c.followingFeed = .ok (c.profiles.selected c.followingFeed) ∧
      printProfiles c = { ending := .overflow } := by
  intro c
  have found : c.profiles.enabled c.followingFeed = .ok (c.profiles.selected c.followingFeed) :=
    Roster.enabled_eq_ok.mpr ⟨rfl, by decide⟩
  refine ⟨by decide +kernel, found, ?_⟩
  exact (printProfiles_eq found).trans (if_neg (by decide))

end FeedTraffic.Command
