import FeedTraffic.Proofs.Layouts
import FeedTraffic.Proofs.Nesting
import FeedTraffic.Proofs.Precedence

/-!
# Settings that are not declared

What no record declares has no influence on loading, whether it is an entry of the tree of all
settings or a variable.  The result stays the same with every error; only where an entry makes a
record come from another source, an error about the record may name that source.
-/

namespace FeedTraffic.Settings

variable {α : Type}

/-! ## Loading -/

/-- What loading makes of the tree of all settings. -/
def settled (tree : Value) : Except LoadError Config := do
  let config ← extract tree
  config.validate.mapError .invalid
  pure config

/-- An error without the source of the value that does not fit. -/
def LoadError.unsourced : LoadError → LoadError
  | .mismatch m => .mismatch { m with origin := .defaults }
  | e => e

theorem mapError_mapError {ε γ δ : Type} (f : ε → γ) (g : γ → δ) (x : Except ε α) :
    (x.mapError f).mapError g = x.mapError (g ∘ f) := by
  cases x <;> rfl

theorem settled_unsourced {tree tree' : Value} (adds : Adds True .config tree tree') :
    (settled tree').mapError LoadError.unsourced = (settled tree).mapError LoadError.unsourced := by
  let view : Mismatch → Mismatch := fun m => { m with origin := .defaults }
  have seen : (Read.config [] tree').mapError view = (Read.config [] tree).mapError view :=
    overlooks_config (fun _ _ _ => rfl) [] tree tree' adds
  have extracted (t : Value) : (extract t).mapError LoadError.unsourced =
      ((Read.config [] t).mapError view).mapError .mismatch := by
    rw [extract, mapError_mapError, mapError_mapError]
    rfl
  refine bind_seen ?_ fun _ => rfl
  rw [extracted, extracted, seen]

theorem settled_eq {tree tree' : Value} (adds : Adds False .config tree tree') :
    settled tree' = settled tree := by
  have seen : (Read.config [] tree').mapError id = (Read.config [] tree).mapError id :=
    overlooks_config nofun [] tree tree' adds
  have as_is (t : Value) : (Read.config [] t).mapError id = Read.config [] t := by
    cases Read.config [] t <;> rfl
  rw [as_is, as_is] at seen
  rw [settled, settled, extract, extract, seen]

/-! ## Variables -/

/-- Whether a path leads through records of a value, all of them dictionaries, to a key that the
last of them does not declare. -/
def leaves (layout : Layout) (v : Value) : List String → Bool
  | [] => false
  | key :: p =>
    match layout, v with
    | .record fields, .dict _ es =>
      match fields.lookup key with
      | none => true
      | some inner =>
        match es.lookup key with
        | some w => leaves inner w p
        | none => false
    | _, _ => false

theorem leaves_cons {layout : Layout} {v : Value} {key : String} {p : List String}
    (h : leaves layout v (key :: p) = true) :
    ∃ fields o es, layout = .record fields ∧ v = .dict o es ∧
      (fields.lookup key = none ∨
        ∃ inner w, fields.lookup key = some inner ∧ es.lookup key = some w ∧
          leaves inner w p = true) := by
  simp only [leaves] at h
  split at h
  · rename_i fields o es
    refine ⟨fields, o, es, rfl, rfl, ?_⟩
    split at h
    · rename_i undeclared
      exact Or.inl undeclared
    · rename_i inner declared
      split at h
      · rename_i w found
        exact Or.inr ⟨inner, w, declared, found, h⟩
      · cases h
  · cases h

/-- A value put under such a path adds an entry that is not declared. -/
theorem adds_nest {layout : Layout} {a : Value} {p : List String} (order : a.Ordered)
    (off : leaves layout a p = true) (v : Value) :
    Adds True layout a (a.over (Variable.nest v p)) := by
  induction p generalizing layout a with
  | nil => cases off
  | cons key p ih =>
    obtain ⟨fields, o, es, rfl, rfl, undeclared | ⟨inner, w, declared, found, below⟩⟩ :=
      leaves_cons off
    · rw [Variable.over_nest_cons, Value.entries_dict]
      exact .entry undeclared _ (Or.inr True.intro)
    · obtain ⟨keys, values⟩ := order.entries
      obtain ⟨before, after, same, replaced⟩ := put_of_lookup keys found
      rw [Variable.over_nest_cons, Value.entries_dict, replaced, found, same]
      exact .within declared (ih (values _ (mem_of_lookup found)) below) (Or.inr True.intro)

/-- So does a value put under such a path of a later tree, if the path is one of both trees
together. -/
theorem adds_over_nest {layout : Layout} {a b : Value} {p : List String} (order : a.Ordered)
    (order' : b.Ordered) (off : leaves layout (a.over b) p = true) (v : Value) :
    Adds True layout (a.over b) (a.over (b.over (Variable.nest v p))) := by
  induction p generalizing layout a b with
  | nil => cases off
  | cons key p ih =>
    obtain ⟨fields, o, es, rfl, joined, step⟩ := leaves_cons off
    have dict : ∃ o' ts, b = .dict o' ts := by
      cases b with
      | dict o' ts => exact ⟨o', ts, rfl⟩
      | scalar => cases joined
      | list => cases joined
    obtain ⟨o', ts, rfl⟩ := dict
    obtain ⟨keys', values'⟩ := order'.entries
    rw [over_dict a o' keys'] at joined
    rw [Variable.over_nest_cons, Value.entries_dict, over_dict a o' keys',
      over_dict a _ (inOrder_put keys' _ _), entriesOver_put order.inOrder keys']
    obtain undeclared | ⟨inner, w, declared, found, below⟩ := step
    · exact .entry undeclared _ (Or.inr True.intro)
    · obtain ⟨-, rfl⟩ := Value.dict.inj joined
      obtain ⟨before, after, same, replaced⟩ :=
        put_of_lookup (inOrder_entriesOver order.inOrder) found
      rw [replaced, same]
      refine .within declared ?_ (Or.inr True.intro)
      rw [lookup_entriesOver keys'] at found
      cases earlier : a.entries.lookup key with
      | none =>
        cases later : ts.lookup key with
        | none => simp [earlier, later] at found
        | some t =>
          obtain rfl : t = w := by simpa [earlier, later] using found
          exact adds_nest (values' _ (mem_of_lookup later)) below v
      | some d =>
        cases later : ts.lookup key with
        | none =>
          obtain rfl : d = w := by simpa [earlier, later] using found
          exact adds_nest (order.of_lookup earlier) below v
        | some t =>
          obtain rfl : d.over t = w := by simpa [earlier, later] using found
          exact ih (order.of_lookup earlier) (values' _ (mem_of_lookup later)) below

def lowered (name : String) : List Char := (Text.trimList name.toList).map Char.toLower

/-- A name is no path if it lacks the mark or if one of its parts is empty. -/
theorem path?_eq_none {name : String}
    (h : ¬Variable.mark <+: lowered name ∨
      [] ∈ Variable.parts (Variable.levels ((lowered name).drop Variable.mark.length))) :
    Variable.path? name = none := by
  simp only [Variable.path?]
  rw [← lowered]
  rcases h with no_mark | empty_part
  · rw [if_neg (by rwa [List.isPrefixOf_iff_prefix])]
  · have some_empty : (Variable.parts (Variable.levels
        ((lowered name).drop Variable.mark.length))).any List.isEmpty = true :=
      List.any_eq_true.mpr ⟨[], empty_part, rfl⟩
    rw [some_empty, if_pos rfl, ite_self]

theorem tree_insert {name : String} (no_path : Variable.path? name = none)
    (before after : List (String × String)) (text : String) :
    Variable.tree (before ++ (name, text) :: after) = Variable.tree (before ++ after) := by
  simp only [Variable.tree, List.foldl_append, List.foldl_cons, no_path]

namespace Sources

theorem load_eq_settled (a : Sources) : a.load = settled (merged a.tree a.env) := a.load_eq

/-- One more variable at the end of an environment. -/
theorem load_concat (a : Sources) (by_variable : String × String) :
    Settings.load a.file (a.env ++ [by_variable]) =
      settled (merged a.tree (a.env ++ [by_variable])) :=
  load_eq_settled ⟨a.file, a.tree, a.env ++ [by_variable], a.read⟩

/-- A variable that names an undeclared setting adds an entry to the tree of all settings. -/
theorem adds_of_path {a : Sources} {name : String} {p : List String}
    (path : Variable.path? name = some p)
    (off : leaves .config (merged a.tree a.env) p = true) (text : String) :
    Adds True .config (merged a.tree a.env) (merged a.tree (a.env ++ [(name, text)])) := by
  have own : Variable.own? (name, text) = some (Variable.nest (Variable.value text) p) := by
    rw [Variable.own?, path]
    rfl
  have tree : Variable.tree (a.env ++ [(name, text)]) =
      (Variable.tree a.env).over (Variable.nest (Variable.value text) p) := by
    rw [Variable.tree_concat, own]
  rw [merged, merged, tree]
  exact adds_over_nest a.file_ordered (Variable.tree_ordered a.env) off _

end Sources

/-- What is not declared has no influence.  Loading settles the tree of all settings.  An entry
that a record in it does not declare leaves the configuration or the error as it is; so it is with
an entry that comes with another source for its record, except that an error may name the new
source.  Such is an entry that a last variable gives whose path leads to a key that its record
does not declare.  A variable that lacks the mark, or that has an empty part, leaves everything as
it is, wherever it stands. -/
theorem load_overlooks_undeclared :
    (∀ a : Sources,
      a.load = settled (merged a.tree a.env) ∧
      (∀ tree, Adds False .config (merged a.tree a.env) tree → settled tree = a.load) ∧
      (∀ tree, Adds True .config (merged a.tree a.env) tree →
        (settled tree).mapError LoadError.unsourced = a.load.mapError LoadError.unsourced) ∧
      ∀ name text p, Variable.path? name = some p →
        leaves .config (merged a.tree a.env) p = true →
        (load a.file (a.env ++ [(name, text)])).mapError LoadError.unsourced =
          a.load.mapError LoadError.unsourced) ∧
    ∀ file before after name text,
      (¬Variable.mark <+: lowered name ∨
        [] ∈ Variable.parts (Variable.levels ((lowered name).drop Variable.mark.length))) →
      load file (before ++ (name, text) :: after) = load file (before ++ after) := by
  refine ⟨fun a => ⟨a.load_eq_settled, ?_, ?_, ?_⟩, ?_⟩
  · intro tree adds
    rw [a.load_eq_settled]
    exact settled_eq adds
  · intro tree adds
    rw [a.load_eq_settled]
    exact settled_unsourced adds
  · intro name text p path off
    rw [a.load_eq_settled, a.load_concat]
    exact settled_unsourced (Sources.adds_of_path path off text)
  · intro file before after name text no_setting
    simp only [load, merged, tree_insert (path?_eq_none no_setting)]

def halfPause : Sources :=
  .ofFile (some ⟨"f.yaml", "profiles: \x7bapi: \x7bwait_time: \x7bmax: 2s\x7d\x7d\x7d"⟩) []
    (by decide +kernel)

/-- The bound is missed whatever else is given: another entry of the pause, one of the whole, or
variables that are no settings. -/
theorem load_overlooks_undeclared_halfPause :
    (∃ m, halfPause.load = .error (.mismatch m) ∧ m.path = ["profiles", "api", "wait_time"] ∧
      m.reason.message = "missing field `min`") ∧
    (load halfPause.file [("FEEDLOAD__PROFILES__API__WAIT_TIME__NOTE", "[1]")]).mapError
        LoadError.unsourced = halfPause.load.mapError LoadError.unsourced ∧
    (∃ o es, merged halfPause.tree halfPause.env = .dict o es ∧
      settled (.dict o (put "hots" (scalarOf .empty) es)) = halfPause.load ∧
      (settled (.dict (.file "g.yaml") (put "Host" (scalarOf .empty) es))).mapError
        LoadError.unsourced = halfPause.load.mapError LoadError.unsourced) ∧
    load halfPause.file [("FEEDLOAD__USERS__", "x"), ("HOME", "x")] = halfPause.load := by
  obtain ⟨of_sources, of_variables⟩ := load_overlooks_undeclared
  obtain ⟨-, kept, moved, by_variable⟩ := of_sources halfPause
  have refused : ∃ m ∈ mismatch? halfPause.load, m.path = ["profiles", "api", "wait_time"] ∧
      m.reason.message = "missing field `min`" := by
    decide +kernel
  obtain ⟨m, found, path, message⟩ := refused
  refine ⟨⟨m, eq_error_of_mismatch? found, path, message⟩, ?_, ?_, ?_⟩
  · exact by_variable "FEEDLOAD__PROFILES__API__WAIT_TIME__NOTE" "[1]"
      ["profiles", "api", "wait_time", "note"] (by decide +kernel) (by decide +kernel)
  · obtain ⟨o, es, tree⟩ : ∃ o es, merged halfPause.tree halfPause.env = .dict o es := by
      have dict : (merged halfPause.tree halfPause.env).IsDict := by decide +kernel
      cases tree : merged halfPause.tree halfPause.env with
      | dict o es => exact ⟨o, es, rfl⟩
      | scalar => exact (tree ▸ dict).elim
      | list => exact (tree ▸ dict).elim
    refine ⟨o, es, tree, kept _ ?_, moved _ ?_⟩
    · rw [tree]
      exact .entry (by decide) _ (Or.inl rfl)
    · rw [tree]
      exact .entry (by decide) _ (Or.inr True.intro)
  · have one := of_variables halfPause.file [] [("HOME", "x")] "FEEDLOAD__USERS__" "x"
      (Or.inr (by decide +kernel))
    have two := of_variables halfPause.file [] [] "HOME" "x" (Or.inl (by decide +kernel))
    exact one.trans two

end FeedTraffic.Settings
