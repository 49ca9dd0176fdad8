import FeedTraffic.Proofs.Trees
import FeedTraffic.Settings.Schema
import Mathlib.Data.List.Forall2

/-!
# Entries that are not declared

A record passes over the entries that no field asks for.  So a value with one more such entry, in
whatever record inside of it, is read as before, down to the first mismatch.
-/

namespace FeedTraffic.Settings

open FeedTraffic.Time

variable {ρ α β : Type}

/-! ## Layouts -/

/-- What is read of a value: a setting, or a record with declared fields. -/
inductive Layout where
  | setting
  | record (fields : List (String × Layout))

namespace Layout

def wait : Layout := .record [("min", .setting), ("max", .setting)]

def overrides : Layout :=
  .record [("enabled", .setting), ("weight", .setting), ("wait_time", wait)]

def roster : Layout :=
  .record [("api", overrides), ("heavy", overrides), ("realistic", overrides),
    ("website", overrides), ("social", overrides)]

def samples : Layout :=
  .record [("pubkeys", .setting), ("post_ids", .setting), ("fallback_post_id", .setting)]

def logging : Layout := .record [("level", .setting), ("format", .setting)]

def config : Layout :=
  .record
    [("host", .setting), ("users", .setting), ("hatch_rate", .setting), ("run_time", .setting),
     ("keep_ramp_up_metrics", .setting), ("report_file", .setting),
     ("throttle_requests", .setting), ("preflight", .setting), ("following_feed", .setting),
     ("samples", samples), ("profiles", roster), ("logging", logging)]

end Layout

/-- A value with one more entry in a dictionary that is read as a record, under a key that the
record does not declare.  Where values may have `moved`, the dictionaries down to that entry may
come from another source than before. -/
inductive Adds (moved : Prop) : Layout → Value → Value → Prop where
  | entry {fields : List (String × Layout)} {o o' : Origin} {es : List (String × Value)}
      {key : String} (undeclared : fields.lookup key = none) (v : Value)
      (source : o' = o ∨ moved) :
      Adds moved (.record fields) (.dict o es) (.dict o' (put key v es))
  | within {fields : List (String × Layout)} {o o' : Origin}
      {before after : List (String × Value)} {key : String} {layout : Layout} {v w : Value}
      (declared : fields.lookup key = some layout) (inside : Adds moved layout v w)
      (source : o' = o ∨ moved) :
      Adds moved (.record fields) (.dict o (before ++ (key, v) :: after))
        (.dict o' (before ++ (key, w) :: after))
  /-- A record may be given as a list, by position. -/
  | item {fields : List (String × Layout)} {o : Origin} {before after : List Value}
      {key : String} {layout : Layout} {v w : Value}
      (declared : fields[before.length]? = some (key, layout)) (inside : Adds moved layout v w) :
      Adds moved (.record fields) (.list o (before ++ v :: after)) (.list o (before ++ w :: after))

/-! ## Readers that pass over what is not declared -/

/-- As far as errors can be seen, a reader makes the same of a value with one more entry that its
layout does not declare. -/
def Overlooks (moved : Prop) (view : Mismatch → β) (read : Read α) (layout : Layout) : Prop :=
  ∀ path v w, Adds moved layout v w →
    (read path w).mapError view = (read path v).mapError view

theorem bind_seen {ε γ : Type} {view : ε → γ} {x y : Except ε α} {f g : α → Except ε β}
    (first : x.mapError view = y.mapError view)
    (then_same : ∀ a, (f a).mapError view = (g a).mapError view) :
    (x >>= f).mapError view = (y >>= g).mapError view := by
  cases x with
  | error e =>
    cases y with
    | error e' => exact congrArg Except.error (Except.error.inj first)
    | ok b => cases first
  | ok a =>
    cases y with
    | error e' => cases first
    | ok b =>
      obtain rfl : a = b := Except.ok.inj first
      exact then_same a

theorem map_seen {ε γ : Type} {view : ε → γ} {x y : Except ε α} (f : α → β)
    (first : x.mapError view = y.mapError view) :
    (x.map f).mapError view = (y.map f).mapError view := by
  cases x with
  | error e =>
    cases y with
    | error e' => exact congrArg Except.error (Except.error.inj first)
    | ok b => cases first
  | ok a =>
    cases y with
    | error e' => cases first
    | ok b => rw [Except.ok.inj first]

section Readers

variable {moved : Prop} {view : Mismatch → β}

/-- A setting has no fields, so nothing can be added to it. -/
theorem overlooks_setting (read : Read α) : Overlooks moved view read .setting := nofun

/-- A field is set to what its reader gives, and the reader overlooks what is not declared. -/
def OverlooksField (moved : Prop) (view : Mismatch → β) (f : Read.Field ρ)
    (declared : String × Layout) : Prop :=
  ∃ (α : Type) (read : Read α) (set : ρ → α → ρ),
    f = Read.field declared.1 read set ∧ Overlooks moved view read declared.2

theorem Overlooks.field {read : Read α} {layout : Layout} (h : Overlooks moved view read layout)
    (key : String) (set : ρ → α → ρ) :
    OverlooksField moved view (Read.field key read set) (key, layout) :=
  ⟨α, read, set, rfl, h⟩

theorem OverlooksField.key {f : Read.Field ρ} {declared : String × Layout}
    (h : OverlooksField moved view f declared) : f.key = declared.1 := by
  obtain ⟨α, read, set, rfl, -⟩ := h
  rfl

theorem OverlooksField.read {f : Read.Field ρ} {key : String} {layout : Layout}
    (h : OverlooksField moved view f (key, layout)) {v w : Value} (adds : Adds moved layout v w)
    (r : ρ) (path : List String) :
    (f.read r path w).mapError view = (f.read r path v).mapError view := by
  obtain ⟨α, read, set, rfl, overlooks⟩ := h
  exact map_seen (set r) (overlooks path v w adds)

section Records

variable {fields : List (Read.Field ρ)} {layout : List (String × Layout)}
  (each : List.Forall₂ (OverlooksField moved view) fields layout) {path : List String}

include each

theorem find?_of_undeclared {key : String} (undeclared : layout.lookup key = none) :
    fields.find? (·.key == key) = none := by
  induction each with
  | nil => rfl
  | @cons f e fields layout first _ ih =>
    obtain ⟨k, l⟩ := e
    rw [List.lookup_cons] at undeclared
    cases same : key == k with
    | true => simp [same] at undeclared
    | false =>
      have other : (f.key == key) = false := by
        rw [first.key, beq_eq_false_iff_ne]
        exact (beq_eq_false_iff_ne.mp same).symm
      rw [List.find?_cons, other]
      exact ih (by simpa [same] using undeclared)

theorem find?_of_declared {key : String} {inner : Layout}
    (declared : layout.lookup key = some inner) :
    ∃ f, fields.find? (·.key == key) = some f ∧ OverlooksField moved view f (key, inner) := by
  induction each with
  | nil => cases declared
  | @cons f e fields layout first _ ih =>
    obtain ⟨k, l⟩ := e
    rw [List.lookup_cons] at declared
    cases same : key == k with
    | true =>
      obtain rfl := eq_of_beq same
      obtain rfl : l = inner := by simpa using declared
      exact ⟨f, by simp [first.key], first⟩
    | false =>
      have other : (f.key == key) = false := by
        rw [first.key, beq_eq_false_iff_ne]
        exact (beq_eq_false_iff_ne.mp same).symm
      obtain ⟨g, found, overlooks⟩ := ih (by simpa [same] using declared)
      exact ⟨g, by rw [List.find?_cons, other]; exact found, overlooks⟩

/-- An entry that no field asks for changes nothing, wherever its key puts it. -/
theorem foldlM_put {key : String} (undeclared : layout.lookup key = none) (v : Value)
    (es : List (String × Value)) (r : ρ) :
    (put key v es).foldlM (Read.entry fields path) r = es.foldlM (Read.entry fields path) r := by
  have passed (w : Value) (r : ρ) : Read.entry fields path r (key, w) = .ok r := by
    rw [Read.entry, find?_of_undeclared each undeclared]
  induction es generalizing r with
  | nil =>
    rw [put, List.foldlM_cons, passed]
    rfl
  | cons e es ih =>
    obtain ⟨k, w⟩ := e
    rw [put]
    split
    · rename_i same
      subst same
      rw [List.foldlM_cons, List.foldlM_cons, passed, passed]
    · split
      · rw [List.foldlM_cons, passed]
        rfl
      · rw [List.foldlM_cons, List.foldlM_cons]
        exact bind_congr fun r => ih r

theorem foldlM_within {key : String} {inner : Layout} (declared : layout.lookup key = some inner)
    {v w : Value} (adds : Adds moved inner v w) (before after : List (String × Value)) (r : ρ) :
    ((before ++ (key, w) :: after).foldlM (Read.entry fields path) r).mapError view =
      ((before ++ (key, v) :: after).foldlM (Read.entry fields path) r).mapError view := by
  obtain ⟨f, found, overlooks⟩ := find?_of_declared each declared
  rw [List.foldlM_append, List.foldlM_append]
  refine bind_seen rfl fun r => ?_
  rw [List.foldlM_cons, List.foldlM_cons]
  refine bind_seen ?_ fun _ => rfl
  simp only [Read.entry, found]
  exact overlooks.read adds r _

theorem positions_item {key : String} {inner : Layout} {v w : Value} {before : List Value}
    (declared : layout[before.length]? = some (key, inner)) (adds : Adds moved inner v w)
    (after : List Value) (n : Nat) (r : ρ) :
    (Read.positions path n fields (before ++ w :: after) r).mapError view =
      (Read.positions path n fields (before ++ v :: after) r).mapError view := by
  induction before generalizing n fields layout r with
  | nil =>
    cases each with
    | nil => cases declared
    | cons first _ =>
      obtain rfl := Option.some.inj declared
      exact bind_seen (first.read adds r _) fun _ => rfl
  | cons u before ih =>
    cases each with
    | nil => rfl
    | cons first each =>
      exact bind_seen rfl fun r => ih each (by simpa using declared) (n + 1) r

theorem overlooks_record (name : String) (d : ρ) :
    Overlooks moved view (Read.record name fields d) (.record layout) := by
  intro path v w adds
  cases adds with
  | entry undeclared v _ => exact congrArg _ (foldlM_put each undeclared v _ d)
  | within declared inside _ => exact foldlM_within each declared inside _ _ d
  | item declared inside => exact positions_item each declared inside _ 0 d

end Records

/-! ## The readers of a configuration -/

theorem Overlooks.optional {read : Read α} {layout : Layout}
    (h : Overlooks moved view read layout) :
    Overlooks moved view (Read.optional read) layout := by
  intro path v w adds
  have both : Read.optional read path v = (read path v).map some ∧
      Read.optional read path w = (read path w).map some := by
    cases adds <;> exact ⟨rfl, rfl⟩
  rw [both.1, both.2]
  exact map_seen some (h path v w adds)

variable (blind : moved → ∀ m o, view { m with origin := o } = view m)

include blind

theorem error_seen {o o' : Origin} (source : o' = o ∨ moved) (reason : Reason)
    (path : List String) :
    (.error ⟨reason, path, o'⟩ : Except Mismatch α).mapError view =
      (.error ⟨reason, path, o⟩ : Except Mismatch α).mapError view := by
  refine congrArg Except.error ?_
  rcases source with rfl | sources
  · rfl
  · exact blind sources ⟨reason, path, o⟩ o'

theorem overlooks_wait : Overlooks moved view Read.wait .wait := by
  have bounds : Overlooks moved view (Read.record "WaitTime" Read.boundFields {}) .wait := by
    refine overlooks_record ?_ _ _
    apply_rules [List.Forall₂.cons, List.Forall₂.nil, Overlooks.field, overlooks_setting]
  intro path v w adds
  refine bind_seen (bounds path v w adds) fun b => ?_
  -- The bounds are settings, so what was added is an entry of the pause itself.
  have no_inner {key : String} {layout : Layout}
      (member : (key, layout) ∈ [("min", Layout.setting), ("max", Layout.setting)]) {v w : Value} :
      ¬Adds moved layout v w := by
    simp only [List.mem_cons, Prod.mk.injEq, List.not_mem_nil, or_false] at member
    rcases member with ⟨-, rfl⟩ | ⟨-, rfl⟩
    · exact nofun
    · exact nofun
  cases adds with
  | entry undeclared u source =>
    obtain ⟨_ | min, _ | max⟩ := b
    · exact error_seen blind source (.missing "min") path
    · exact error_seen blind source (.missing "min") path
    · exact error_seen blind source (.missing "max") path
    · rfl
  | within declared inside =>
    obtain ⟨before, after, same, -⟩ := List.lookup_eq_some_iff.mp declared
    exact absurd inside (no_inner (same.symm ▸ List.mem_append_right before List.mem_cons_self))
  | item declared inside => exact absurd inside (no_inner (List.mem_of_getElem? declared))

theorem overlooks_overrides : Overlooks moved view Read.overrides .overrides := by
  refine overlooks_record ?_ _ _
  apply_rules [List.Forall₂.cons, List.Forall₂.nil, Overlooks.field, overlooks_setting,
    Overlooks.optional, overlooks_wait]

theorem overlooks_roster : Overlooks moved view Read.roster .roster := by
  refine overlooks_record ?_ _ _
  apply_rules [List.Forall₂.cons, List.Forall₂.nil, Overlooks.field, overlooks_overrides]

theorem overlooks_config : Overlooks moved view Read.config .config := by
  have samples : Overlooks moved view Read.samples .samples := by
    refine overlooks_record ?_ _ _
    apply_rules [List.Forall₂.cons, List.Forall₂.nil, Overlooks.field, overlooks_setting]
  have logging : Overlooks moved view Read.logging .logging := by
    refine overlooks_record ?_ _ _
    apply_rules [List.Forall₂.cons, List.Forall₂.nil, Overlooks.field, overlooks_setting]
  refine overlooks_record ?_ _ _
  apply_rules [List.Forall₂.cons, List.Forall₂.nil, Overlooks.field, overlooks_setting,
    overlooks_roster]

end Readers

end FeedTraffic.Settings
