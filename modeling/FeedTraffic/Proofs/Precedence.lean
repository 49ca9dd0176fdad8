import FeedTraffic.Proofs.ConfigSettings
import FeedTraffic.Proofs.Sources

/-!
# Later sources win

A configuration is read from the defaults, a settings file over them and the environment over
both.  Where neither of the two puts anything in the way, a setting is what the environment says,
or else the file, or else the default, and what one of them says about a setting changes no other.
-/

namespace FeedTraffic.Settings

open FeedTraffic.Time FeedTraffic.User

/-! ## The defaults -/

theorem defaults_ordered : defaults.Ordered := by
  have scalar (s : Scalar) : (scalarOf s).Ordered := .scalar _ s
  have text (s : String) : (textOf s).Ordered := scalar (.text s)
  have switch (enabled : Bool) : (switchTree enabled).Ordered :=
    .ofEntries _ (by simp [scalar])
  have samples : (samplesTree .default).Ordered :=
    .ofEntries _ (by simp [text, Value.Ordered.list])
  have roster : (rosterTree {}).Ordered := .ofEntries _ (by simp [switch])
  have logging (level format : Value) (h : level.Ordered) (h' : format.Ordered) :
      (dictOf [("level", level), ("format", format)]).Ordered :=
    .ofEntries _ (by simp [h, h'])
  exact .ofEntries _ (by simp [scalar, text, samples, roster, logging])

/-- The tree of the defaults is read as the defaults. -/
theorem config_defaults : Read.config [] defaults = .ok {} := by
  have read : (Read.config [] defaults).toOption = some {} := by decide +kernel
  cases config : Read.config [] defaults with
  | error m =>
    rw [config] at read
    cases read
  | ok c =>
    rw [config] at read
    rw [Option.some.inj read]

/-- The defaults have values above every setting. -/
theorem defaults_openAt {s : Setting Config} (member : s ∈ settings) : defaults.OpenAt s.path := by
  have above : ∀ p ∈ settings.map (·.path), ∀ q ∈ p.inits, q ≠ p →
      ∃ w ∈ defaults.at? q, ¬w.IsList := by decide +kernel
  intro q below other
  exact above s.path (List.mem_map_of_mem member) q ((List.mem_inits q s.path).mpr below) other

/-! ## Loading -/

theorem fileTree_ordered {file : Option File} {tree : Value} (h : fileTree file = .ok tree) :
    tree.Ordered := by
  cases file with
  | none => exact Except.ok.inj h ▸ .empty _
  | some f =>
    simp only [fileTree] at h
    split at h
    · rename_i v read
      exact Except.ok.inj h ▸ Yaml.settings?_ordered read
    · cases h

theorem eq_ok_of_isSome {ε α : Type} {e : Except ε α} (h : e.toOption.isSome = true) :
    e = .ok (e.toOption.get h) := by
  cases e with
  | error => cases h
  | ok a => rfl

def mismatch? : Except LoadError Config → Option Mismatch
  | .error (.mismatch m) => some m
  | _ => none

theorem eq_error_of_mismatch? {result : Except LoadError Config} {m : Mismatch}
    (h : mismatch? result = some m) : result = .error (.mismatch m) := by
  unfold mismatch? at h
  split at h
  · rw [Option.some.inj h]
  · cases h

/-- Sources of settings: a file, or none, that can be read as a tree, and an environment. -/
structure Sources where
  file : Option File
  tree : Value
  env : List (String × String)
  read : fileTree file = .ok tree

namespace Sources

def ofFile (file : Option File) (env : List (String × String))
    (readable : (fileTree file).toOption.isSome = true) : Sources where
  file := file
  tree := (fileTree file).toOption.get readable
  env := env
  read := eq_ok_of_isSome readable

variable (a : Sources)

def load : Except LoadError Config := Settings.load a.file a.env

/-- Neither source puts anything in the way of a path. -/
structure ClearAt (p : List String) : Prop where
  file : a.tree.Clear p
  env : (Variable.tree a.env).Clear p

/-- What the sources say at a path: the environment, or else the file. -/
def at? (p : List String) : Option Value := ((Variable.tree a.env).at? p).or (a.tree.at? p)

/-- Two pairs of sources that say the same beside a path. -/
structure AgreeBeside (p : List String) (a b : Sources) : Prop where
  file : Value.AgreeBeside p a.tree b.tree
  env : Value.AgreeBeside p (Variable.tree a.env) (Variable.tree b.env)

variable {a b : Sources}

theorem file_ordered (a : Sources) : (defaults.over a.tree).Ordered :=
  defaults_ordered.over (fileTree_ordered a.read)

theorem merged_ordered (a : Sources) : (merged a.tree a.env).Ordered :=
  a.file_ordered.over (Variable.tree_ordered a.env)

theorem merged_openAt {s : Setting Config} (member : s ∈ settings) (clear : a.ClearAt s.path) :
    (merged a.tree a.env).OpenAt s.path :=
  ((defaults_openAt member).over (fileTree_ordered a.read) clear.file.1).over
    (Variable.tree_ordered a.env) clear.env.1

theorem merged_at? {p : List String} (clear : a.ClearAt p) :
    (merged a.tree a.env).at? p = (a.at? p).or (defaults.at? p) := by
  rw [merged, Value.at?_over_of_clear (Variable.tree_ordered a.env) clear.env,
    Value.at?_over_of_clear (fileTree_ordered a.read) clear.file, at?, Option.or_assoc]

theorem merged_agreeBeside {p : List String} (here : a.ClearAt p) (there : b.ClearAt p)
    (agree : AgreeBeside p a b) :
    Value.AgreeBeside p (merged a.tree a.env) (merged b.tree b.env) :=
  .over (Variable.tree_ordered a.env) (Variable.tree_ordered b.env) here.env.1 there.env.1
    (.over (fileTree_ordered a.read) (fileTree_ordered b.read) here.file.1 there.file.1
      (fun _ _ _ => rfl) agree.file) agree.env

theorem load_eq (a : Sources) :
    a.load = (do
      let config ← extract ((defaults.over a.tree).over (Variable.tree a.env))
      config.validate.mapError .invalid
      pure config) := by
  rw [load, Settings.load, a.read]
  rfl

/-- What has been loaded has been read from the tree of all settings. -/
theorem config_of_load {config : Config} (ok : a.load = .ok config) :
    Read.config [] (merged a.tree a.env) = .ok config := by
  rw [load_eq] at ok
  obtain ⟨c, extracted, ok⟩ := bind_eq_ok ok
  obtain ⟨-, -, ok⟩ := bind_eq_ok ok
  rw [← Except.ok.inj ok]
  cases read : Read.config [] (merged a.tree a.env) with
  | error m =>
    rw [extract, ← merged, read] at extracted
    cases extracted
  | ok x =>
    rw [extract, ← merged, read] at extracted
    rw [Except.ok.inj extracted]

/-- What has been read of the tree of all settings and is accepted is loaded. -/
theorem load_of_config {config : Config} (ok : Read.config [] (merged a.tree a.env) = .ok config)
    (valid : config.validate = .ok ()) : a.load = .ok config := by
  rw [load_eq, ← merged, extract, ok]
  simp only [Except.mapError, bind, Except.bind, valid]
  rfl

/-- A mismatch in the tree of all settings is all that loading says. -/
theorem load_of_mismatch {m : Mismatch}
    (refused : Read.config [] (merged a.tree a.env) = .error m) :
    a.load = .error (.mismatch m) := by
  rw [load_eq, ← merged, extract, refused]
  rfl

/-- A setting is what the sources say at its path, or else the default. -/
theorem read_setting {config : Config}
    (ok : Read.config [] (merged a.tree a.env) = .ok config) {s : Setting Config}
    (member : s ∈ settings) (clear : a.ClearAt s.path) :
    match a.at? s.path with
    | some v => ∃ x, s.read s.path v = .ok x ∧ s.get config = some x
    | none => s.get config = s.get {} := by
  have found := config_faithful.finds a.merged_ordered ok s member (merged_openAt member clear)
  have initial := config_faithful.finds defaults_ordered config_defaults s member
    (defaults_openAt member)
  rw [merged_at? clear] at found
  cases given : a.at? s.path with
  | some v => simpa [given, Gets] using found
  | none =>
    rw [given, Option.none_or] at found
    exact found.unique initial

theorem load_setting {config : Config} (ok : a.load = .ok config) {s : Setting Config}
    (member : s ∈ settings) (clear : a.ClearAt s.path) :
    match a.at? s.path with
    | some v => ∃ x, s.read s.path v = .ok x ∧ s.get config = some x
    | none => s.get config = s.get {} :=
  read_setting (config_of_load ok) member clear

/-- A value of the tree of all settings that is no dictionary is one of a single source. -/
theorem merged_whole {p : List String} {w : Value} (found : (merged a.tree a.env).at? p = some w)
    (no_dict : ¬w.IsDict) :
    defaults.at? p = some w ∨ a.tree.at? p = some w ∨ (Variable.tree a.env).at? p = some w := by
  rcases Value.at?_over_whole (Variable.tree_ordered a.env) no_dict found with below | env
  · rcases Value.at?_over_whole (fileTree_ordered a.read) no_dict below with default | file
    · exact Or.inl default
    · exact Or.inr (Or.inl file)
  · exact Or.inr (Or.inr env)

/-- What sources say about one setting changes no other. -/
theorem read_isolated {x y : Config} (okx : Read.config [] (merged a.tree a.env) = .ok x)
    (oky : Read.config [] (merged b.tree b.env) = .ok y)
    {s t : Setting Config} (there : t ∈ settings) (here : s ∈ settings) (other : s.path ≠ t.path)
    (clear : a.ClearAt t.path) (clear' : b.ClearAt t.path) (agree : AgreeBeside t.path a b) :
    s.get x = s.get y :=
  config_faithful.isolates a.merged_ordered b.merged_ordered okx oky t there
    (merged_openAt there clear) (merged_openAt there clear') (merged_agreeBeside clear clear' agree)
    s here other

theorem settings_isolated {x y : Config} (okx : a.load = .ok x) (oky : b.load = .ok y)
    {s t : Setting Config} (there : t ∈ settings) (here : s ∈ settings) (other : s.path ≠ t.path)
    (clear : a.ClearAt t.path) (clear' : b.ClearAt t.path) (agree : AgreeBeside t.path a b) :
    s.get x = s.get y :=
  read_isolated (config_of_load okx) (config_of_load oky) there here other clear clear' agree

/-- A pause of which one bound is given needs the other. -/
theorem load_lacks_bound {p : String × (Roster → Overrides)} (profile : p ∈ profiles)
    {s t : Setting (Option WaitTime)} (one : s ∈ waitSettings) (other : t ∈ waitSettings)
    (clear : a.ClearAt (boundPath p.1 s)) (clear' : a.ClearAt (boundPath p.1 t))
    (given : a.at? (boundPath p.1 s) ≠ none) (lacking : a.at? (boundPath p.1 t) = none) :
    ∃ e, a.load = .error e := by
  cases loaded : a.load with
  | error e => exact ⟨e, rfl⟩
  | ok config =>
    have first := load_setting loaded (bound_mem_settings profile one) clear
    have second := load_setting loaded (bound_mem_settings profile other) clear'
    obtain ⟨v, given⟩ := Option.ne_none_iff_exists'.mp given
    simp only [given] at first
    obtain ⟨x, -, got⟩ := first
    simp only [lacking] at second
    have none_wait : (p.2 config.profiles).wait = none := by
      rw [← bound_eq_none_iff other, second, bound_eq_none_iff other]
      exact wait_default profile
    rw [(bound_eq_none_iff one _).mpr none_wait] at got
    cases got

end Sources

/-- A configuration is read from the defaults, the file over them and the environment over both.
When that succeeds, a setting that neither the file nor the environment puts anything in the way
of is what the environment says, or else the file, or else the default; of a pause both bounds
have to be given.  A list is always the list of a single source.  Where sources differ only in
what they say about one setting, all other settings are the same.  An environment says about a
path what the last of its variables says that says anything about it.  The settings are all there
is to a configuration. -/
theorem load_prefers_later (a : Sources) :
    a.load = (do
      let config ← extract ((defaults.over a.tree).over (Variable.tree a.env))
      config.validate.mapError .invalid
      pure config) ∧
    (∀ config, a.load = .ok config → ∀ s ∈ settings, a.ClearAt s.path →
      match a.at? s.path with
      | some v => ∃ x, s.read s.path v = .ok x ∧ s.get config = some x
      | none => s.get config = s.get {}) ∧
    (∀ p ∈ profiles, ∀ s ∈ waitSettings, ∀ t ∈ waitSettings,
      a.ClearAt (boundPath p.1 s) → a.ClearAt (boundPath p.1 t) →
      a.at? (boundPath p.1 s) ≠ none → a.at? (boundPath p.1 t) = none →
      ∃ e, a.load = .error e) ∧
    (∀ p w, ((defaults.over a.tree).over (Variable.tree a.env)).at? p = some w → w.IsList →
      defaults.at? p = some w ∨ a.tree.at? p = some w ∨
        (Variable.tree a.env).at? p = some w) ∧
    (∀ b : Sources, ∀ x y, a.load = .ok x → b.load = .ok y → ∀ t ∈ settings,
      a.ClearAt t.path → b.ClearAt t.path → Sources.AgreeBeside t.path a b →
      ∀ s ∈ settings, s.path ≠ t.path → s.get x = s.get y) ∧
    (∀ p, p ≠ [] → (∀ v ∈ a.env, ∀ own, Variable.own? v = some own → own.Clear p) →
      (Variable.tree a.env).Clear p ∧ (Variable.tree a.env).at? p =
        a.env.reverse.findSome? fun v => (Variable.own? v).bind (Value.at? p)) ∧
    (∀ x y : Config, (∀ s ∈ settings, s.get x = s.get y) → x = y) := by
  refine ⟨a.load_eq, ?_, ?_, ?_, ?_, ?_, fun x y same => eq_of_settings same⟩
  · intro config ok s member clear
    exact Sources.load_setting ok member clear
  · intro p profile s one t other clear clear' given lacking
    exact Sources.load_lacks_bound profile one other clear clear' given lacking
  · intro p w found list
    have no_dict : ¬w.IsDict := by
      cases w with
      | list => exact id
      | scalar => exact id
      | dict => exact absurd list id
    exact Sources.merged_whole found no_dict
  · intro b x y okx oky t there clear clear' agree s here other
    exact Sources.settings_isolated okx oky there here other clear clear' agree
  · intro p filled clear
    exact Variable.tree_at? filled clear

def splitPause : Sources :=
  .ofFile
    (some ⟨"f.yaml", "users: 5\nprofiles: \x7bapi: \x7bwait_time: \x7bmin: 1s\x7d\x7d\x7d"⟩)
    [("FEEDLOAD__USERS", "7"), ("FEEDLOAD__PROFILES__API__WAIT_TIME__MAX", "2s"),
     ("FEEDLOAD__SAMPLES", "\x7bpubkeys=[ab],post_ids=[cd],fallback_post_id=ef\x7d")]
    (by decide +kernel)

theorem load_prefers_later_splitPause :
    ∃ config, splitPause.load = .ok config ∧ config.users = 7 ∧
      config.profiles.api.wait.map (·.min) = some (.ofSeconds 1) ∧
      config.profiles.api.wait.map (·.max) = some (.ofSeconds 2) := by
  obtain ⟨-, given, -⟩ := load_prefers_later splitPause
  obtain ⟨config, loaded⟩ : ∃ config, splitPause.load = .ok config :=
    ⟨_, eq_ok_of_isSome (by decide +kernel)⟩
  have setting {s : Setting Config} (member : s ∈ settings) (clear : splitPause.ClearAt s.path)
      {x : s.Kind}
      (known : ((splitPause.at? s.path).bind fun v => (s.read s.path v).toOption) = some x) :
      s.get config = some x := by
    obtain ⟨v, at_path, read⟩ := Option.bind_eq_some_iff.mp known
    have found := given config loaded s member clear
    simp only [at_path] at found
    obtain ⟨y, ok, got⟩ := found
    rw [ok] at read
    exact got.trans read
  have api : ("api", Roster.api) ∈ profiles := .head _
  refine ⟨config, loaded, ?_, ?_, ?_⟩
  · have users : (⟨["users"], Nat, Read.count, fun c => some c.users, some 10⟩ : Setting Config) ∈
        settings := .tail _ (.head _)
    have seven := setting users ⟨by decide +kernel, by decide +kernel⟩ (x := 7) (by decide +kernel)
    exact Option.some.inj seven
  · have min := bound_mem_settings api (.head _)
    exact setting min ⟨by decide +kernel, by decide +kernel⟩ (by decide +kernel)
  · have max := bound_mem_settings api (.tail _ (.head _))
    exact setting max ⟨by decide +kernel, by decide +kernel⟩ (by decide +kernel)

end FeedTraffic.Settings
