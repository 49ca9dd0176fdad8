import FeedTraffic.Proofs.Fields

/-!
# The settings of a configuration

A configuration has settings of its own and such in its samples, its logging and its profiles,
down to the two bounds of a pause.  A pause is the one record without defaults: it is there with
both bounds or not at all.
-/

namespace FeedTraffic.Settings

open FeedTraffic.Feed FeedTraffic.Number FeedTraffic.Time FeedTraffic.User

variable {ρ : Type}

/-! ## Pauses -/

def boundParts : List (Part Read.Bounds) :=
  [.leaf "min" Read.duration (·.min) {}, .leaf "max" Read.duration (·.max) {}]

theorem bounds_faithful :
    Faithful (Read.record "WaitTime" Read.boundFields {}) (boundParts.flatMap Part.settings) := by
  refine faithful_record "WaitTime" (by decide) ?_ ?_ ?_
  · apply_rules [List.Forall₂.cons, List.Forall₂.nil] <;>
      · refine ⟨_, rfl, fun _ _ => rfl, ?_⟩
        simp [boundParts, Part.leaf]
  · simp [boundParts, Part.startsAs_leaf]
  · simp [boundParts, faithful_leaf]

def waitSettings : List (Setting (Option WaitTime)) :=
  [⟨["min"], Duration, Read.duration, Option.map (·.min), none⟩,
   ⟨["max"], Duration, Read.duration, Option.map (·.max), none⟩]

/-- A pause has both of its bounds. -/
theorem wait_bounds {path : List String} {v : Value} {w : WaitTime}
    (ok : Read.wait path v = .ok w) :
    ∃ b, Read.record "WaitTime" Read.boundFields {} path v = .ok b ∧ b.min = some w.min ∧
      b.max = some w.max := by
  obtain ⟨b, read, rest⟩ := bind_eq_ok ok
  refine ⟨b, read, ?_⟩
  split at rest
  · rename_i min max
    rw [← Except.ok.inj rest]
    exact ⟨min, max⟩
  · cases rest
  · cases rest
  · cases rest

/-- Both bounds of a pause are read from what stands at their paths. -/
theorem wait_reads {path : List String} {v : Value} {w : WaitTime} (order : v.Ordered)
    (ok : Read.wait path v = .ok w) (no_list : ¬v.IsList) :
    (∃ u, v.at? ["min"] = some u ∧ Read.duration (path ++ ["min"]) u = .ok w.min) ∧
      ∃ u, v.at? ["max"] = some u ∧ Read.duration (path ++ ["max"]) u = .ok w.max := by
  obtain ⟨b, read, min, max⟩ := wait_bounds ok
  have found := bounds_faithful.finds order read
  have settings : boundParts.flatMap Part.settings =
      [⟨["min"], Duration, Read.duration, fun b => b.min.bind some, none⟩,
       ⟨["max"], Duration, Read.duration, fun b => b.max.bind some, none⟩] := rfl
  rw [settings, List.forall_mem_cons, List.forall_mem_singleton] at found
  have first := found.1 (Value.openAt_singleton no_list "min")
  have second := found.2 (Value.openAt_singleton no_list "max")
  constructor
  · cases at_min : v.at? ["min"] with
    | none => simp [Gets, at_min, min] at first
    | some u => exact ⟨u, rfl, by simpa [Gets, at_min, min] using first⟩
  · cases at_max : v.at? ["max"] with
    | none => simp [Gets, at_max, max] at second
    | some u => exact ⟨u, rfl, by simpa [Gets, at_max, max] using second⟩

theorem wait_finds {path : List String} {v : Value} {x : Option WaitTime} (order : v.Ordered)
    (ok : Read.optional Read.wait path v = .ok x) (no_list : ¬v.IsList) :
    ∀ s ∈ waitSettings,
      Gets (s.read (path ++ s.path)) (v.at? s.path) s.fallback (s.get x) := by
  rw [waitSettings, List.forall_mem_cons, List.forall_mem_singleton]
  simp only [Read.optional] at ok
  split at ok
  · rw [← Except.ok.inj ok]
    exact ⟨rfl, rfl⟩
  · obtain ⟨w, read, rfl⟩ := map_eq_ok ok
    obtain ⟨⟨u, at_min, min⟩, u', at_max, max⟩ := wait_reads order read no_list
    simp only [at_min, at_max]
    exact ⟨⟨w.min, min, rfl⟩, w.max, max, rfl⟩

theorem not_isList_of_waitSettings {v : Value} {s : Setting (Option WaitTime)}
    (member : s ∈ waitSettings) (opened : v.OpenAt s.path) : ¬v.IsList := by
  simp only [waitSettings, List.mem_cons, List.not_mem_nil, or_false] at member
  rcases member with rfl | rfl
  · exact opened.not_isList
  · exact opened.not_isList

theorem waitSettings_apart :
    ∀ s ∈ waitSettings, ∀ t ∈ waitSettings, s.path <+: t.path → s.path = t.path := by
  simp [waitSettings]

theorem wait_faithful : Faithful (Read.optional Read.wait) waitSettings where
  finds := by
    intro path v x order ok s member opened
    exact wait_finds order ok (not_isList_of_waitSettings member opened) s member
  isolates := by
    intro path v w x y order order' ok ok' t there opened opened' agree s member other
    have found := wait_finds order ok (not_isList_of_waitSettings there opened) s member
    have found' := wait_finds order' ok' (not_isList_of_waitSettings there opened') s member
    have beside : v.at? s.path = w.at? s.path := by
      refine agree _ (fun below => other ?_) (fun below => other ?_)
      · exact waitSettings_apart s member t there below
      · exact (waitSettings_apart t there s member below).symm
    rw [← beside] at found'
    exact found.unique found'
  apart := waitSettings_apart

/-! ## Records of settings -/

def overridesParts : List (Part Overrides) :=
  [.leaf "enabled" Read.bool (fun o => some o.enabled) {},
   .leaf "weight" (Read.optional Read.count) (fun o => some o.weight) {},
   .branch "wait_time" (Read.optional Read.wait) (·.wait) waitSettings]

def overridesSettings : List (Setting Overrides) := overridesParts.flatMap Part.settings

theorem waitSettings_startAs (d : Overrides) :
    (Part.branch "wait_time" (Read.optional Read.wait) (·.wait) waitSettings).StartsAs d := by
  have filled : ∀ s ∈ waitSettings, s.path ≠ [] := by simp [waitSettings]
  intro s member empty
  exact absurd empty (filled s member)

theorem overrides_faithful : Faithful Read.overrides overridesSettings := by
  refine faithful_record "ProfileConfig" (by decide) ?_ ?_ ?_
  · apply_rules [List.Forall₂.cons, List.Forall₂.nil] <;>
      · refine ⟨_, rfl, fun _ _ => rfl, ?_⟩
        simp [overridesParts, Part.leaf, Part.branch]
  · simp [overridesParts, Part.startsAs_leaf, waitSettings_startAs]
  · simp [overridesParts, faithful_leaf, Part.branch, wait_faithful]

/-- The profiles and where their settings are. -/
def profiles : List (String × (Roster → Overrides)) :=
  [("api", (·.api)), ("heavy", (·.heavy)), ("realistic", (·.realistic)),
   ("website", (·.website)), ("social", (·.social))]

def rosterParts : List (Part Roster) :=
  profiles.map fun p => .branch p.1 Read.overrides p.2 overridesSettings

def rosterSettings : List (Setting Roster) := rosterParts.flatMap Part.settings

theorem roster_faithful : Faithful Read.roster rosterSettings := by
  refine faithful_record "Profiles" (by decide) ?_ ?_ ?_
  · apply_rules [List.Forall₂.cons, List.Forall₂.nil] <;>
      · refine ⟨_, rfl, fun _ _ => rfl, ?_⟩
        simp [rosterParts, profiles, Part.branch]
  · simp [rosterParts, profiles, Part.startsAs_branch, overridesSettings]
  · simp [rosterParts, profiles, Part.branch, overrides_faithful]

def samplesParts : List (Part Samples) :=
  [.leaf "pubkeys" (Read.sequence Read.text) (fun s => some s.pubkeys) .default,
   .leaf "post_ids" (Read.sequence Read.text) (fun s => some s.postIds) .default,
   .leaf "fallback_post_id" Read.text (fun s => some s.fallbackPostId) .default]

def samplesSettings : List (Setting Samples) := samplesParts.flatMap Part.settings

/-- Samples are read field by field. -/
theorem samples_reads : ∃ fields, Read.samples = Read.record "SampleData" fields .default ∧
    List.Forall₂ (Part.SetBy samplesParts) samplesParts fields := by
  refine ⟨_, rfl, ?_⟩
  apply_rules [List.Forall₂.cons, List.Forall₂.nil] <;>
    · refine ⟨_, rfl, fun _ _ => rfl, ?_⟩
      simp [samplesParts, Part.leaf]

theorem samples_faithful : Faithful Read.samples samplesSettings := by
  obtain ⟨fields, record, sets⟩ := samples_reads
  rw [record]
  refine faithful_record "SampleData" (by decide) sets ?_ ?_
  · simp [samplesParts, Part.startsAs_leaf]
  · simp [samplesParts, faithful_leaf]

def loggingParts : List (Part Logging) :=
  [.leaf "level" Read.level (fun l => some l.level) {},
   .leaf "format" Read.format (fun l => some l.format) {}]

def loggingSettings : List (Setting Logging) := loggingParts.flatMap Part.settings

theorem logging_faithful : Faithful Read.logging loggingSettings := by
  refine faithful_record "Logging" (by decide) ?_ ?_ ?_
  · apply_rules [List.Forall₂.cons, List.Forall₂.nil] <;>
      · refine ⟨_, rfl, fun _ _ => rfl, ?_⟩
        simp [loggingParts, Part.leaf]
  · simp [loggingParts, Part.startsAs_leaf]
  · simp [loggingParts, faithful_leaf]

def configParts : List (Part Config) :=
  [.leaf "host" Read.text (fun c => some c.host) {},
   .leaf "users" Read.count (fun c => some c.users) {},
   .leaf "hatch_rate" Read.number (fun c => some c.hatchRate) {},
   .leaf "run_time" Read.duration (fun c => some c.runTime) {},
   .leaf "keep_ramp_up_metrics" Read.bool (fun c => some c.keepRampUpMetrics) {},
   .leaf "report_file" (Read.optional Read.text) (fun c => some c.reportFile) {},
   .leaf "throttle_requests" (Read.optional Read.count) (fun c => some c.throttleRequests) {},
   .leaf "preflight" Read.bool (fun c => some c.preflight) {},
   .leaf "following_feed" Read.bool (fun c => some c.followingFeed) {},
   .branch "samples" Read.samples (·.samples) samplesSettings,
   .branch "profiles" Read.roster (·.profiles) rosterSettings,
   .branch "logging" Read.logging (·.logging) loggingSettings]

def settings : List (Setting Config) := configParts.flatMap Part.settings

example : settings.map (fun s => ".".intercalate s.path) =
    ["host", "users", "hatch_rate", "run_time", "keep_ramp_up_metrics", "report_file",
     "throttle_requests", "preflight", "following_feed", "samples.pubkeys", "samples.post_ids",
     "samples.fallback_post_id"] ++
    ["api", "heavy", "realistic", "website", "social"].flatMap (fun profile =>
      ["enabled", "weight", "wait_time.min", "wait_time.max"].map fun key =>
        "profiles." ++ profile ++ "." ++ key) ++
    ["logging.level", "logging.format"] := by
  decide +kernel

/-- A configuration is read field by field. -/
theorem config_reads : ∃ fields, Read.config = Read.record "Config" fields {} ∧
    List.Forall₂ (Part.SetBy configParts) configParts fields := by
  refine ⟨_, rfl, ?_⟩
  apply_rules [List.Forall₂.cons, List.Forall₂.nil] <;>
    · refine ⟨_, rfl, fun _ _ => rfl, ?_⟩
      simp [configParts, Part.leaf, Part.branch]

theorem config_faithful : Faithful Read.config settings := by
  obtain ⟨fields, record, sets⟩ := config_reads
  rw [record]
  refine faithful_record "Config" (by decide) sets ?_ ?_
  · simp [configParts, Part.startsAs_leaf, Part.startsAs_branch, samplesSettings,
      rosterSettings, loggingSettings]
  · simp [configParts, faithful_leaf, Part.branch, samples_faithful, roster_faithful,
      logging_faithful]

/-! ## Nothing but settings -/

/-- What two records have in common in all settings they have in common in those of a part. -/
theorem inner_eq {parts : List (Part ρ)} {r r' : ρ}
    (same : ∀ s ∈ parts.flatMap Part.settings, s.get r = s.get r') {part : Part ρ}
    (here : part ∈ parts) :
    ∀ s ∈ part.inner, (part.get r).bind s.get = (part.get r').bind s.get := fun s inside =>
  same (part.lift s) (List.mem_flatMap.mpr ⟨part, here, List.mem_map_of_mem inside⟩)

theorem eq_of_bounds {w w' : Option WaitTime} (min : w.map (·.min) = w'.map (·.min))
    (max : w.map (·.max) = w'.map (·.max)) : w = w' := by
  match w, w' with
  | none, none => rfl
  | none, some _ => cases min
  | some _, none => cases min
  | some ⟨_, _⟩, some ⟨_, _⟩ =>
    exact congrArg some (congrArg₂ WaitTime.mk (Option.some.inj min) (Option.some.inj max))

theorem eq_of_overridesSettings {o o' : Overrides}
    (same : ∀ s ∈ overridesSettings, s.get o = s.get o') : o = o' := by
  simp only [overridesSettings, overridesParts, Part.settings, Part.lift, Part.leaf, Part.branch,
    waitSettings, List.flatMap_cons, List.flatMap_nil, List.map_cons, List.map_nil,
    List.cons_append, List.nil_append, List.forall_mem_cons, Option.bind_some,
    Option.some.injEq] at same
  obtain ⟨enabled, weight, min, max, -⟩ := same
  have wait := eq_of_bounds min max
  cases o
  cases o'
  simp_all

theorem eq_of_rosterSettings {r r' : Roster}
    (same : ∀ s ∈ rosterSettings, s.get r = s.get r') : r = r' := by
  have equal : ∀ p ∈ profiles, p.2 r = p.2 r' := fun p member =>
    eq_of_overridesSettings (inner_eq same (List.mem_map_of_mem member))
  simp only [profiles, List.forall_mem_cons] at equal
  obtain ⟨api, heavy, realistic, website, social, -⟩ := equal
  cases r
  cases r'
  simp_all

theorem eq_of_samplesSettings {x y : Samples}
    (same : ∀ s ∈ samplesSettings, s.get x = s.get y) : x = y := by
  simp [samplesSettings, samplesParts, Part.settings, Part.lift, Part.leaf] at same
  cases x
  cases y
  simp_all

theorem eq_of_loggingSettings {l l' : Logging}
    (same : ∀ s ∈ loggingSettings, s.get l = s.get l') : l = l' := by
  simp [loggingSettings, loggingParts, Part.settings, Part.lift, Part.leaf] at same
  cases l
  cases l'
  simp_all

/-- Two configurations with the same settings are the same. -/
theorem eq_of_settings {c c' : Config} (same : ∀ s ∈ settings, s.get c = s.get c') : c = c' := by
  have inner {part : Part Config} (here : part ∈ configParts) := inner_eq same here
  simp [configParts, Part.leaf, Part.branch] at inner
  obtain ⟨host, users, hatch_rate, run_time, keep, report, throttle, preflight, following,
    samples, profiles, logging⟩ := inner
  have samples := eq_of_samplesSettings samples
  have profiles := eq_of_rosterSettings profiles
  have logging := eq_of_loggingSettings logging
  cases c
  cases c'
  simp_all

/-! ## The pauses of the profiles -/

def boundPath (profile : String) (bound : Setting (Option WaitTime)) : List String :=
  "profiles" :: profile :: "wait_time" :: bound.path

theorem bound_mem_settings {p : String × (Roster → Overrides)} (profile : p ∈ profiles)
    {s : Setting (Option WaitTime)} (bound : s ∈ waitSettings) :
    (⟨boundPath p.1 s, s.Kind, s.read, fun c => s.get (p.2 c.profiles).wait, s.fallback⟩ :
      Setting Config) ∈ settings := by
  let wait : Part Overrides := .branch "wait_time" (Read.optional Read.wait) (·.wait) waitSettings
  let section' : Part Roster := .branch p.1 Read.overrides p.2 overridesSettings
  let roster : Part Config := .branch "profiles" Read.roster (·.profiles) rosterSettings
  have in_overrides : wait.lift s ∈ overridesSettings :=
    List.mem_flatMap.mpr ⟨wait, by simp [overridesParts, wait], List.mem_map_of_mem bound⟩
  have in_roster : section'.lift (wait.lift s) ∈ rosterSettings :=
    List.mem_flatMap.mpr
      ⟨section', List.mem_map_of_mem profile, List.mem_map_of_mem in_overrides⟩
  exact List.mem_flatMap.mpr
    ⟨roster, by simp [configParts, roster], List.mem_map_of_mem in_roster⟩

theorem bound_eq_none_iff {s : Setting (Option WaitTime)} (bound : s ∈ waitSettings)
    (w : Option WaitTime) : s.get w = none ↔ w = none := by
  simp only [waitSettings, List.mem_cons, List.not_mem_nil, or_false] at bound
  rcases bound with rfl | rfl
  · exact Option.map_eq_none_iff
  · exact Option.map_eq_none_iff

/-- No profile has a pause of its own by default. -/
theorem wait_default {p : String × (Roster → Overrides)} (profile : p ∈ profiles) :
    (p.2 {}).wait = none := by
  simp only [profiles, List.mem_cons, List.not_mem_nil, or_false] at profile
  rcases profile with rfl | rfl | rfl | rfl | rfl <;> rfl

end FeedTraffic.Settings
