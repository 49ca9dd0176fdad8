import FeedTraffic.Proofs.Trees
import FeedTraffic.Settings.Schema
import Mathlib.Data.List.Nodup

/-!
# What is read at a path

Every setting of a configuration has a path, a reader and a place in the configuration.  A tree
that can be read gives each setting what its reader makes of the value at its path, and no setting
sees what stands at the path of another.
-/

namespace FeedTraffic.Settings

variable {ρ α : Type}

/-! ## Settings and the parts of records -/

structure Setting (ρ : Type) where
  /-- The keys down to it. -/
  path : List String
  Kind : Type
  read : Read Kind
  /-- What it is in a record; a bound of a pause is nothing where there is no pause. -/
  get : ρ → Option Kind
  /-- What it is when a tree does not have it. -/
  fallback : Option Kind

structure Part (ρ : Type) where
  key : String
  Kind : Type
  read : Read Kind
  get : ρ → Option Kind
  inner : List (Setting Kind)

namespace Part

def lift (part : Part ρ) (s : Setting part.Kind) : Setting ρ :=
  ⟨part.key :: s.path, s.Kind, s.read, fun r => (part.get r).bind s.get, s.fallback⟩

def settings (part : Part ρ) : List (Setting ρ) := part.inner.map part.lift

def leaf (key : String) (read : Read α) (get : ρ → Option α) (initial : ρ) : Part ρ :=
  ⟨key, α, read, get, [⟨[], α, read, some, get initial⟩]⟩

def branch (key : String) (read : Read α) (get : ρ → α) (inner : List (Setting α)) : Part ρ :=
  ⟨key, α, read, fun r => some (get r), inner⟩

/-- A field sets a part and leaves all others as they are. -/
def SetBy (parts : List (Part ρ)) (part : Part ρ) (f : Read.Field ρ) : Prop :=
  ∃ set, f = Read.field part.key part.read set ∧ (∀ r x, part.get (set r x) = some x) ∧
    ∀ other ∈ parts, other.key ≠ part.key → ∀ r x, other.get (set r x) = other.get r

/-- A part that is a setting starts out as the record has it. -/
def StartsAs (part : Part ρ) (d : ρ) : Prop :=
  ∀ s ∈ part.inner, s.path = [] → (part.get d).bind s.get = s.fallback

theorem startsAs_leaf (key : String) (read : Read α) (get : ρ → Option α) (d : ρ) :
    (leaf key read get d).StartsAs d := by
  intro s member _
  rw [List.mem_singleton.mp member]
  exact Option.bind_fun_some (get d)

theorem startsAs_branch (key : String) (read : Read α) (get : ρ → α) (parts : List (Part α))
    (d : ρ) : (branch key read get (parts.flatMap settings)).StartsAs d := by
  intro s member empty
  obtain ⟨part, -, inside⟩ := List.mem_flatMap.mp member
  obtain ⟨t, -, rfl⟩ := List.mem_map.mp inside
  exact absurd empty (List.cons_ne_nil part.key t.path)

end Part

/-! ## Readers that are faithful to their settings -/

/-- What is got from a value that may be there: what a reader makes of it, or else a fallback. -/
def Gets (read : Value → Except Mismatch α) (v : Option Value) (fallback got : Option α) : Prop :=
  match v with
  | some w => ∃ y, read w = .ok y ∧ got = some y
  | none => got = fallback

theorem Gets.unique {read : Value → Except Mismatch α} {v : Option Value}
    {fallback x y : Option α} (hx : Gets read v fallback x) (hy : Gets read v fallback y) :
    x = y := by
  cases v with
  | none => exact hx.trans hy.symm
  | some w =>
    obtain ⟨a, read, got⟩ := hx
    obtain ⟨b, read', got'⟩ := hy
    rw [read] at read'
    rw [got, got', Except.ok.inj read']

/-- A reader makes of every tree the settings that stand in it, each on its own. -/
structure Faithful (read : Read α) (settings : List (Setting α)) : Prop where
  finds : ∀ {path : List String} {v : Value} {x : α}, v.Ordered → read path v = .ok x →
    ∀ s ∈ settings, v.OpenAt s.path →
      Gets (s.read (path ++ s.path)) (v.at? s.path) s.fallback (s.get x)
  isolates : ∀ {path : List String} {v w : Value} {x y : α}, v.Ordered → w.Ordered →
    read path v = .ok x → read path w = .ok y → ∀ t ∈ settings, v.OpenAt t.path →
      w.OpenAt t.path → Value.AgreeBeside t.path v w → ∀ s ∈ settings, s.path ≠ t.path →
        s.get x = s.get y
  apart : ∀ s ∈ settings, ∀ t ∈ settings, s.path <+: t.path → s.path = t.path

/-- A reader of a single setting. -/
theorem faithful_single (read : Read α) (fallback : Option α) :
    Faithful read [⟨[], α, read, some, fallback⟩] where
  finds := by
    intro path v x order ok s member opened
    rw [List.mem_singleton.mp member]
    exact ⟨x, by simpa using ok, rfl⟩
  isolates := by
    intro path v w x y _ _ _ _ t here _ _ _ s member other
    rw [List.mem_singleton.mp here, List.mem_singleton.mp member] at other
    exact absurd rfl other
  apart := by
    intro s here t there _
    rw [List.mem_singleton.mp here, List.mem_singleton.mp there]

/-! ## Records -/

theorem map_eq_ok {ε β : Type} {e : Except ε α} {f : α → β} {b : β} (h : e.map f = .ok b) :
    ∃ a, e = .ok a ∧ f a = b := by
  cases e with
  | error => cases h
  | ok a => exact ⟨a, rfl, Except.ok.inj h⟩

theorem bind_eq_ok {ε β : Type} {e : Except ε α} {f : α → Except ε β} {b : β}
    (h : e >>= f = .ok b) : ∃ a, e = .ok a ∧ f a = .ok b := by
  cases e with
  | error => cases h
  | ok a => exact ⟨a, rfl, h⟩

theorem find?_of_setBy {all parts : List (Part ρ)} {fields : List (Read.Field ρ)}
    (sets : List.Forall₂ (Part.SetBy all) parts fields) (names : (parts.map (·.key)).Nodup)
    {part : Part ρ} (here : part ∈ parts) :
    ∃ f, fields.find? (·.key == part.key) = some f ∧ part.SetBy all f := by
  induction sets with
  | nil => cases here
  | @cons first f parts fields sets _ ih =>
    obtain ⟨fresh, names⟩ := List.nodup_cons.mp names
    have key : f.key = first.key := by
      obtain ⟨set, rfl, -⟩ := sets
      rfl
    rcases List.mem_cons.mp here with rfl | later
    · exact ⟨f, by simp [key], sets⟩
    · have other : first.key ≠ part.key := fun same =>
        fresh (List.mem_map.mpr ⟨part, later, same.symm⟩)
      obtain ⟨g, found, sets⟩ := ih names later
      exact ⟨g, by simpa [List.find?_cons, key, other] using found, sets⟩

theorem exists_of_setBy {all parts : List (Part ρ)} {fields : List (Read.Field ρ)}
    (sets : List.Forall₂ (Part.SetBy all) parts fields) {f : Read.Field ρ} (here : f ∈ fields) :
    ∃ part : Part ρ, part.SetBy all f := by
  induction sets with
  | nil => cases here
  | @cons part f' parts fields sets _ ih =>
    rcases List.mem_cons.mp here with rfl | later
    · exact ⟨part, sets⟩
    · exact ih later

section Records

variable {fields : List (Read.Field ρ)} {parts : List (Part ρ)}
  (sets : List.Forall₂ (Part.SetBy parts) parts fields) (names : (parts.map (·.key)).Nodup)
  {part : Part ρ} (here : part ∈ parts) {path : List String}

include sets here

theorem entry_keeps {r r' : ρ} {e : String × Value} (other : e.1 ≠ part.key)
    (ok : Read.entry fields path r e = .ok r') : part.get r' = part.get r := by
  simp only [Read.entry] at ok
  split at ok
  · rename_i f found
    have key : f.key = e.1 := by simpa using List.find?_some found
    obtain ⟨part', set, rfl, -, keeps⟩ := exists_of_setBy sets (List.mem_of_find?_eq_some found)
    obtain ⟨x, -, rfl⟩ := map_eq_ok ok
    exact keeps part here (fun same => other (key.symm.trans same.symm)) r x
  · rw [← Except.ok.inj ok]

include names

theorem entry_sets {r r' : ρ} {v : Value}
    (ok : Read.entry fields path r (part.key, v) = .ok r') :
    ∃ x, part.read (path ++ [part.key]) v = .ok x ∧ part.get r' = some x := by
  obtain ⟨f, found, set, rfl, gets, -⟩ := find?_of_setBy sets names here
  simp only [Read.entry, found, Read.field] at ok
  obtain ⟨x, read, rfl⟩ := map_eq_ok ok
  exact ⟨x, read, gets r x⟩

/-- Every entry is read into its own part. -/
theorem entries_find {es : List (String × Value)} {d r : ρ} (order : InOrder es)
    (ok : es.foldlM (Read.entry fields path) d = .ok r) :
    Gets (part.read (path ++ [part.key])) (es.lookup part.key) (part.get d) (part.get r) := by
  induction es generalizing d with
  | nil =>
    obtain rfl : d = r := Except.ok.inj ok
    rfl
  | cons e es ih =>
    obtain ⟨k, v⟩ := e
    obtain ⟨behind, rest⟩ := List.pairwise_cons.mp order
    rw [List.foldlM_cons] at ok
    obtain ⟨between, first, ok⟩ := bind_eq_ok ok
    have later := ih rest ok
    by_cases same : k = part.key
    · subst same
      rw [lookup_eq_none_of_inOrder order] at later
      obtain ⟨x, read, got⟩ := entry_sets sets names here first
      rw [lookup_cons, if_pos rfl]
      exact ⟨x, read, later.trans got⟩
    · rw [lookup_cons, if_neg (Ne.symm same)]
      rwa [entry_keeps sets here same first] at later

end Records

/-- A record that can be read, from a tree that is no list, is read from a dictionary. -/
theorem record_dict {name : String} {fields : List (Read.Field ρ)} {d r : ρ}
    {path : List String} {v : Value} (ok : Read.record name fields d path v = .ok r)
    (no_list : ¬v.IsList) :
    ∃ o es, v = .dict o es ∧ es.foldlM (Read.entry fields path) d = .ok r := by
  cases v with
  | scalar => simp [Read.record, unexpected, refuse] at ok
  | list => exact absurd True.intro no_list
  | dict o es => exact ⟨o, es, rfl, ok⟩

/-- A record is faithful to the settings in its fields. -/
theorem faithful_record {fields : List (Read.Field ρ)} {d : ρ} {parts : List (Part ρ)}
    (name : String) (names : (parts.map (·.key)).Nodup)
    (sets : List.Forall₂ (Part.SetBy parts) parts fields)
    (starts : ∀ part ∈ parts, part.StartsAs d)
    (faithful : ∀ part ∈ parts, Faithful part.read part.inner) :
    Faithful (Read.record name fields d) (parts.flatMap Part.settings) where
  finds := by
    intro path v r order ok s member opened
    obtain ⟨part, here, inside⟩ := List.mem_flatMap.mp member
    obtain ⟨t, within, rfl⟩ := List.mem_map.mp inside
    obtain ⟨o, es, rfl, folded⟩ := record_dict ok opened.not_isList
    obtain ⟨keys, values⟩ := order.entries
    have read := entries_find sets names here keys folded
    simp only [Part.lift, Value.at?]
    cases found : es.lookup part.key with
    | none =>
      rw [found] at read
      have same : part.get r = part.get d := read
      rw [Option.bind_none, same]
      exact starts part here t within (opened.filled found)
    | some w =>
      rw [found] at read
      obtain ⟨x, ok, got⟩ := read
      have inner := (faithful part here).finds (values _ (mem_of_lookup found)) ok t within
        (opened.below found)
      simp only [Option.bind_some, got]
      rwa [List.append_assoc] at inner
  isolates := by
    intro path v w x y order order' ok ok' t there opened opened' agree s member other
    obtain ⟨part, here, inside⟩ := List.mem_flatMap.mp member
    obtain ⟨s, within, rfl⟩ := List.mem_map.mp inside
    obtain ⟨part', here', inside'⟩ := List.mem_flatMap.mp there
    obtain ⟨t, within', rfl⟩ := List.mem_map.mp inside'
    obtain ⟨o, es, rfl, folded⟩ := record_dict ok opened.not_isList
    obtain ⟨o', es', rfl, folded'⟩ := record_dict ok' opened'.not_isList
    obtain ⟨keys, values⟩ := order.entries
    obtain ⟨keys', values'⟩ := order'.entries
    have read := entries_find sets names here keys folded
    have read' := entries_find sets names here keys' folded'
    simp only [Part.lift] at other opened opened' agree ⊢
    by_cases same : part.key = part'.key
    · obtain rfl := List.inj_on_of_nodup_map names here here' same
      have between : s.path ≠ t.path := by simpa using other
      -- The field is in both trees or in neither, unless it is the setting that may differ.
      have alone (single : t.path = []) : False :=
        between ((faithful part here).apart t within' s within (single ▸ List.nil_prefix)).symm
      cases found : es.lookup part.key with
      | none =>
        cases found' : es'.lookup part.key with
        | none =>
          rw [found] at read
          rw [found'] at read'
          rw [read.unique read']
        | some w => exact (alone (opened.filled found)).elim
      | some u =>
        cases found' : es'.lookup part.key with
        | none => exact (alone (opened'.filled found')).elim
        | some w =>
          rw [found] at read
          rw [found'] at read'
          obtain ⟨a, ok, got⟩ := read
          obtain ⟨b, ok', got'⟩ := read'
          simp only [got, got', Option.bind_some]
          exact (faithful part here).isolates (values _ (mem_of_lookup found))
            (values' _ (mem_of_lookup found')) ok ok' t within' (opened.below found)
            (opened'.below found') (agree.below found found') s within between
    · rw [← agree.lookup same] at read'
      rw [read.unique read']
  apart := by
    intro s member t member' below
    obtain ⟨part, here, inside⟩ := List.mem_flatMap.mp member
    obtain ⟨s, within, rfl⟩ := List.mem_map.mp inside
    obtain ⟨part', here', inside'⟩ := List.mem_flatMap.mp member'
    obtain ⟨t, within', rfl⟩ := List.mem_map.mp inside'
    simp only [Part.lift, List.cons_prefix_cons] at below ⊢
    obtain rfl := List.inj_on_of_nodup_map names here here' below.1
    rw [(faithful part here).apart s within t within' below.2]

/-- Fields that are settings are faithful to themselves. -/
theorem faithful_leaf (key : String) (read : Read α) (get : ρ → Option α) (initial : ρ) :
    Faithful (Part.leaf key read get initial).read (Part.leaf key read get initial).inner :=
  faithful_single read (get initial)

end FeedTraffic.Settings
