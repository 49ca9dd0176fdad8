import FeedTraffic.Proofs.Nesting
import FeedTraffic.Proofs.Precedence
import FeedTraffic.Proofs.WordLiterals

/-!
# Identifiers given by variables

A variable that gives one setting puts its value over a tree that can be read without it, and then
this value alone decides whether the whole can be read.  An identifier is a text, so one that is
taken for a number is refused.
-/

namespace FeedTraffic.Settings

open FeedTraffic.Feed

variable {ρ α : Type}

/-! ## Another value for one setting -/

/-- Once a tree can be read and has a setting, another value of the setting is all that decides
whether the tree can be read with it. -/
def Settles (read : Read α) (s : Setting α) : Prop :=
  ∀ (path : List String) (tree v w : Value) (x : α), tree.Ordered → read path tree = .ok x →
    tree.at? s.path = some v → ¬w.IsDict →
    (∀ m, s.read (path ++ s.path) w = .error m →
      read path (tree.over (Variable.nest w s.path)) = .error m) ∧
    (∀ y, s.read (path ++ s.path) w = .ok y →
      ∃ x', read path (tree.over (Variable.nest w s.path)) = .ok x')

theorem settles_single (read : Read α) (fallback : Option α) :
    Settles read ⟨[], α, read, some, fallback⟩ := by
  intro path tree v w x _ _ _ no_dict
  have replaced : tree.over (Variable.nest w []) = w := Value.over_of_not_isDict no_dict
  rw [replaced, List.append_nil]
  exact ⟨fun m refused => refused, fun y ok => ⟨y, ok⟩⟩

section Records

variable {fields : List (Read.Field ρ)} {all parts : List (Part ρ)}
  (sets : List.Forall₂ (Part.SetBy all) parts fields) {path : List String}

include sets

/-- Whether an entry can be read does not depend on what has been read before. -/
theorem entry_ok {r r' : ρ} {e : String × Value} (ok : Read.entry fields path r e = .ok r')
    (d : ρ) : ∃ d', Read.entry fields path d e = .ok d' := by
  simp only [Read.entry] at ok ⊢
  split at ok
  · rename_i f found
    obtain ⟨part, set, rfl, -⟩ := exists_of_setBy sets (List.mem_of_find?_eq_some found)
    obtain ⟨x, read, -⟩ := map_eq_ok ok
    exact ⟨set d x, by simp [Read.field, read, Except.map]⟩
  · exact ⟨d, rfl⟩

theorem entries_ok {es : List (String × Value)} {r r' : ρ}
    (ok : es.foldlM (Read.entry fields path) r = .ok r') (d : ρ) :
    ∃ d', es.foldlM (Read.entry fields path) d = .ok d' := by
  induction es generalizing r d with
  | nil => exact ⟨d, rfl⟩
  | cons e es ih =>
    rw [List.foldlM_cons] at ok
    obtain ⟨between, first, rest⟩ := bind_eq_ok ok
    obtain ⟨d₁, first⟩ := entry_ok sets first d
    obtain ⟨d₂, rest⟩ := ih rest d₁
    exact ⟨d₂, by rw [List.foldlM_cons, first]; exact rest⟩

/-- Where all entries can be read, another value for one of them decides alone. -/
theorem entries_decided (names : (parts.map (·.key)).Nodup) {part : Part ρ} (here : part ∈ parts)
    {before after : List (String × Value)} {u : Value} {d r : ρ}
    (ok : (before ++ (part.key, u) :: after).foldlM (Read.entry fields path) d = .ok r)
    (w : Value) :
    (∃ y, part.read (path ++ [part.key]) u = .ok y) ∧
      (∀ m, part.read (path ++ [part.key]) w = .error m →
        (before ++ (part.key, w) :: after).foldlM (Read.entry fields path) d = .error m) ∧
      ∀ y, part.read (path ++ [part.key]) w = .ok y →
        ∃ r', (before ++ (part.key, w) :: after).foldlM (Read.entry fields path) d = .ok r' := by
  obtain ⟨f, is_field, set, rfl, -⟩ := find?_of_setBy sets names here
  have own (v : Value) (r : ρ) : Read.entry fields path r (part.key, v) =
      (part.read (path ++ [part.key]) v).map (set r) := by
    simp only [Read.entry, is_field, Read.field]
  -- What is read before the entry stays, and what comes behind it is read all the same.
  rw [List.foldlM_append] at ok
  obtain ⟨r₁, first, ok⟩ := bind_eq_ok ok
  rw [List.foldlM_cons, own] at ok
  obtain ⟨r₂, entry, last⟩ := bind_eq_ok ok
  obtain ⟨y, read, -⟩ := map_eq_ok entry
  have steps : (before ++ (part.key, w) :: after).foldlM (Read.entry fields path) d =
      (part.read (path ++ [part.key]) w).map (set r₁) >>=
        after.foldlM (Read.entry fields path) := by
    rw [List.foldlM_append, first, ← own, ← List.foldlM_cons]
    rfl
  refine ⟨⟨y, read⟩, fun m bad => ?_, fun z good => ?_⟩
  · rw [steps, bad]
    rfl
  · obtain ⟨r', rest⟩ := entries_ok sets last (set r₁ z)
    exact ⟨r', by rw [steps, good]; exact rest⟩

end Records

/-- In a record, a setting of a field that is there decides as it does in the field. -/
theorem settles_record {fields : List (Read.Field ρ)} {d : ρ} {parts : List (Part ρ)}
    (name : String) (names : (parts.map (·.key)).Nodup)
    (sets : List.Forall₂ (Part.SetBy parts) parts fields) {part : Part ρ} (here : part ∈ parts)
    {s : Setting part.Kind} (inner : Settles part.read s) :
    Settles (Read.record name fields d) (part.lift s) := by
  intro path tree v w x order ok found no_dict
  cases tree with
  | scalar => cases found
  | list => cases found
  | dict o es =>
    simp only [Part.lift, Value.at?] at found
    obtain ⟨u, entry, below⟩ := Option.bind_eq_some_iff.mp found
    obtain ⟨keys, values⟩ := order.entries
    have order' : u.Ordered := values (part.key, u) (mem_of_lookup entry)
    obtain ⟨before, after, rfl, replaced⟩ := put_of_lookup keys entry
    obtain ⟨⟨y, read⟩, refused, accepted⟩ :=
      entries_decided sets names here ok (u.over (Variable.nest w s.path))
    obtain ⟨bad, good⟩ := inner _ _ _ _ _ order' read below no_dict
    have tree_eq : (Value.dict o (before ++ (part.key, u) :: after)).over
        (Variable.nest w (part.lift s).path) = .dict .environment
          (before ++ (part.key, u.over (Variable.nest w s.path)) :: after) := by
      rw [Part.lift, Variable.over_nest_cons, Value.entries_dict, entry, replaced]
      rfl
    have path_eq : path ++ (part.lift s).path = (path ++ [part.key]) ++ s.path := by
      simp [Part.lift]
    rw [tree_eq, path_eq]
    constructor
    · intro m other
      exact refused m (bad m other)
    · intro z other
      obtain ⟨y', read'⟩ := good z other
      exact accepted y' read'

/-! ## The fallback post -/

def fallbackSetting : Setting Config :=
  ⟨["samples", "fallback_post_id"], String, Read.text,
    fun c => some c.samples.fallbackPostId, some Samples.default.fallbackPostId⟩

theorem fallbackSetting_mem : fallbackSetting ∈ settings := by
  simp [settings, configParts, samplesSettings, samplesParts, Part.settings, Part.lift,
    Part.leaf, Part.branch, fallbackSetting]

/-- What is put at its path alone decides whether a tree can be read. -/
theorem fallback_settles : Settles Read.config fallbackSetting := by
  obtain ⟨fields, config, sets⟩ := config_reads
  obtain ⟨fields', samples, sets'⟩ := samples_reads
  let post : Part Samples :=
    .leaf "fallback_post_id" Read.text (fun s => some s.fallbackPostId) .default
  let shared : Part Config := .branch "samples" Read.samples (·.samples) samplesSettings
  have inner :
      Settles Read.samples (post.lift ⟨[], String, Read.text, some, post.get .default⟩) := by
    rw [samples]
    have here : post ∈ samplesParts := by simp [samplesParts, post]
    exact settles_record "SampleData" (by decide) sets' here (settles_single Read.text _)
  rw [config]
  have here : shared ∈ configParts := by simp [configParts, shared]
  exact settles_record "Config" (by decide) sets here inner

theorem settings_paths_nodup : (settings.map (·.path)).Nodup := by decide +kernel

/-- The defaults with another post to look up first. -/
def withFallback (id : String) : Config :=
  { samples := { Samples.default with fallbackPostId := id } }

theorem withFallback_get (id : String) {s : Setting Config} (member : s ∈ settings)
    (other : s.path ≠ fallbackSetting.path) : s.get (withFallback id) = s.get {} := by
  revert s
  simp [settings, configParts, Part.settings, Part.lift, Part.leaf, Part.branch, samplesSettings,
    samplesParts, rosterSettings, rosterParts, profiles, overridesSettings, overridesParts,
    waitSettings, loggingSettings, loggingParts, withFallback, fallbackSetting]

theorem isHex_ofList {cs : List Char} (filled : cs ≠ []) (digits : cs.all Text.Hex.isDigit = true) :
    Samples.isHex (String.ofList cs) = true := by
  simp [Samples.isHex, filled, digits]

/-- The built-in identifiers are hexadecimal. -/
theorem default_hex : ∀ i ∈ Samples.default.pubkeys ++ Samples.default.postIds,
    Samples.isHex i = true := by
  simp only [Samples.default, List.cons_append, List.nil_append, List.forall_mem_cons]
  and_intros
  all_goals first
    | exact isHex_ofList (List.cons_ne_nil _ _) (by decide +kernel)
    | exact nofun

theorem withFallback_valid {id : String} (hex : Samples.isHex id = true) :
    (withFallback id).validate = .ok () := by
  have all_hex : (withFallback id).samples.identifiers.find? (!Samples.isHex ·) = none := by
    rw [List.find?_eq_none]
    intro i member
    have cases_of : i ∈ Samples.default.pubkeys ++ Samples.default.postIds ∨ i = id := by
      simpa [Samples.identifiers, withFallback, or_assoc] using member
    rcases cases_of with default | rfl
    · simp [default_hex i default]
    · simp [hex]
  have samples : (withFallback id).samples.validate = .ok () := by
    rw [Samples.validate, all_hex]
    rfl
  have passed : ¬({} : Config).host.isEmpty = true ∧ ({} : Config).users ≠ 0 ∧
      ¬(!({} : Config).hatchRate.isPositive) = true ∧ ({} : Config).runTime.seconds ≠ 0 := by
    decide +kernel
  obtain ⟨host, users, rate, time⟩ := passed
  calc (withFallback id).validate
      = (withFallback id).samples.validate.mapError .samples :=
        (if_neg host).trans ((if_neg users).trans ((if_neg rate).trans (if_neg time)))
    _ = .ok () := by rw [samples]; rfl

section Loads

variable {a : Sources} (no_file : a.tree = .dict .defaults []) {s : Scalar}
  (env : Variable.tree a.env = Variable.nest (.scalar .environment s) fallbackSetting.path)

include no_file env

theorem merged_fallback :
    merged a.tree a.env =
      (defaults.over (.dict .defaults [])).over
        (Variable.nest (.scalar .environment s) fallbackSetting.path) := by
  rw [merged, env, no_file]

/-- Without a file, the value of the one variable decides whether a configuration is read. -/
theorem fallback_decides :
    (∀ m, Read.text fallbackSetting.path (.scalar .environment s) = .error m →
      Read.config [] (merged a.tree a.env) = .error m) ∧
    (∀ id, Read.text fallbackSetting.path (.scalar .environment s) = .ok id →
      ∃ c, Read.config [] (merged a.tree a.env) = .ok c) := by
  have there : ((defaults.over (.dict .defaults [])).at? fallbackSetting.path).isSome = true := by
    decide +kernel
  obtain ⟨v, there⟩ := Option.isSome_iff_exists.mp there
  have order : (defaults.over (.dict .defaults [])).Ordered := defaults_ordered.over (.empty _)
  rw [merged_fallback no_file env]
  exact fallback_settles [] _ v (.scalar .environment s) {} order config_defaults there id

/-- A value that is no text is refused, and nothing else is said. -/
theorem load_fallback_refused {m : Mismatch}
    (refused : Read.text fallbackSetting.path (.scalar .environment s) = .error m) :
    a.load = .error (.mismatch m) :=
  Sources.load_of_mismatch ((fallback_decides no_file env).1 m refused)

/-- A text that can be read is the only setting that is not its default. -/
theorem fallback_alone {id : String} {c : Config}
    (ok : Read.config [] (merged a.tree a.env) = .ok c)
    (given : Read.text fallbackSetting.path (.scalar .environment s) = .ok id) :
    c = withFallback id := by
  let unset : Sources := ⟨none, .dict .defaults [], [], rfl⟩
  have no_dict : ¬(Value.scalar .environment s).IsDict := fun dict => dict
  have filled : fallbackSetting.path ≠ [] := List.cons_ne_nil _ _
  have clear : a.ClearAt fallbackSetting.path :=
    ⟨no_file ▸ Value.clear_empty _ filled, env ▸ Variable.clear_nest no_dict _⟩
  have clear' : unset.ClearAt fallbackSetting.path :=
    ⟨Value.clear_empty _ filled, Value.clear_empty _ filled⟩
  have agree : Sources.AgreeBeside fallbackSetting.path a unset :=
    ⟨no_file ▸ fun _ _ _ => rfl, env ▸ Variable.agreeBeside_nest _ _ _⟩
  refine eq_of_settings fun t member => ?_
  by_cases here : t.path = fallbackSetting.path
  · obtain rfl := List.inj_on_of_nodup_map settings_paths_nodup member fallbackSetting_mem here
    have found := Sources.read_setting ok member clear
    rw [Sources.at?, env, Variable.at?_nest, Option.some_or] at found
    obtain ⟨x, read, got⟩ := found
    rw [got]
    exact congrArg some (Except.ok.inj (read.symm.trans given))
  · rw [withFallback_get id member here]
    exact Sources.read_isolated (b := unset) ok config_defaults fallbackSetting_mem member here
      clear clear' agree

/-- An identifier that arrives as a text is loaded. -/
theorem load_fallback_text {id : String} (hex : Samples.isHex id = true)
    (given : Read.text fallbackSetting.path (.scalar .environment s) = .ok id) :
    a.load = .ok (withFallback id) := by
  obtain ⟨c, ok⟩ := (fallback_decides no_file env).2 id given
  rw [fallback_alone no_file env ok given] at ok
  exact Sources.load_of_config ok (withFallback_valid hex)

end Loads

/-- No file, and one variable, which gives the post to look up first. -/
def fallbackFrom (text : String) : Sources where
  file := none
  tree := .dict .defaults []
  env := [("FEEDLOAD__SAMPLES__FALLBACK_POST_ID", text)]
  read := rfl

theorem tree_fallbackFrom {text : String} {s : Scalar}
    (value : Variable.value text = .scalar .environment s) :
    Variable.tree (fallbackFrom text).env =
      Variable.nest (.scalar .environment s) fallbackSetting.path := by
  have path : Variable.path? "FEEDLOAD__SAMPLES__FALLBACK_POST_ID" = some fallbackSetting.path := by
    decide +kernel
  simp only [fallbackFrom, Variable.tree, List.foldl_cons, List.foldl_nil, path, value]
  rfl

theorem isWord_of_isHex {id : String} (hex : Samples.isHex id = true) :
    Variable.IsWord id.toList ∧ id ≠ "" := by
  simp only [Samples.isHex, Bool.and_eq_true, Bool.not_eq_true', List.all_eq_true] at hex
  exact ⟨hex.2, by simpa using hex.1⟩

/-- An identifier is given by a variable alone.  Where it is a number in decimal digits below
`2 ^ 64`, it is taken for that number, which is no text, and so it is refused.  Any other
identifier arrives as it is, and so does every one between double quotes; all else is as without
the variable. -/
theorem load_identifier (id : String) (hex : Samples.isHex id = true) :
    load none [("FEEDLOAD__SAMPLES__FALLBACK_POST_ID", id)] =
      (if id.toList.all Char.isDigit ∧ Nat.ofDigitChars 10 id.toList 0 < 2 ^ 64 then
        .error (.mismatch
          ⟨.type (.scalar .environment (.unsigned (Nat.ofDigitChars 10 id.toList 0))) .text,
            ["samples", "fallback_post_id"], .environment⟩)
      else .ok { samples := { Samples.default with fallbackPostId := id } }) ∧
    load none [("FEEDLOAD__SAMPLES__FALLBACK_POST_ID", "\"" ++ id ++ "\"")] =
      .ok { samples := { Samples.default with fallbackPostId := id } } := by
  obtain ⟨word, filled⟩ := isWord_of_isHex hex
  have value := Variable.value_word word filled
  refine ⟨?_, load_fallback_text rfl (tree_fallbackFrom (Variable.value_quoted word)) hex rfl⟩
  by_cases number : id.toList.all Char.isDigit ∧ Nat.ofDigitChars 10 id.toList 0 < 2 ^ 64
  · rw [if_pos number] at value ⊢
    exact load_fallback_refused rfl (tree_fallbackFrom value) rfl
  · rw [if_neg number] at value ⊢
    exact load_fallback_text rfl (tree_fallbackFrom value) hex rfl

/-- Two identifiers of which only the first is no number. -/
theorem load_identifier_short :
    Samples.isHex "12ab" = true ∧ Samples.isHex "0012" = true ∧
      load none [("FEEDLOAD__SAMPLES__FALLBACK_POST_ID", "12ab")] =
        .ok { samples := { Samples.default with fallbackPostId := "12ab" } } ∧
      load none [("FEEDLOAD__SAMPLES__FALLBACK_POST_ID", "0012")] =
        .error (.mismatch ⟨.type (.scalar .environment (.unsigned 12)) .text,
          ["samples", "fallback_post_id"], .environment⟩) := by
  have hex : Samples.isHex "12ab" = true := by decide +kernel
  have hex' : Samples.isHex "0012" = true := by decide +kernel
  have read := (load_identifier "12ab" hex).1
  have read' := (load_identifier "0012" hex').1
  rw [if_neg (by decide +kernel)] at read
  rw [if_pos (by decide +kernel)] at read'
  exact ⟨hex, hex', read, read'⟩

/-- An identifier of decimal digits alone does not arrive. -/
theorem digits_do_not_arrive :
    Samples.isHex "1234" = true ∧
      ∀ config, load none [("FEEDLOAD__SAMPLES__FALLBACK_POST_ID", "1234")] ≠ .ok config := by
  refine ⟨by decide +kernel, fun config loaded => ?_⟩
  have refused :
      (load none [("FEEDLOAD__SAMPLES__FALLBACK_POST_ID", "1234")]).toOption = none := by
    decide +kernel
  rw [loaded] at refused
  cases refused

end FeedTraffic.Settings
