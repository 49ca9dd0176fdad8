import FeedTraffic.Proofs.Sources
import Mathlib.Data.List.Lemmas
import Mathlib.Data.List.Perm.Basic

/-!
# Values under paths

Entries in order are known by what every key stands for, so it does not matter how they were put
together.  A value under a path touches a single entry of the tree that it is put over, at every
level down to the end of the path.
-/

namespace FeedTraffic.Settings

/-! ## Entries -/

theorem lookup_of_mem {k : String} {v : Value} {es : List (String × Value)} (order : InOrder es)
    (member : (k, v) ∈ es) : es.lookup k = some v := by
  obtain ⟨before, after, rfl⟩ := List.append_of_mem member
  have apart : ∀ e ∈ before, e.1 < k := fun e earlier =>
    (List.pairwise_append.mp order).2.2 e earlier _ List.mem_cons_self
  refine List.lookup_eq_some_iff.mpr ⟨before, after, rfl, fun e earlier => ?_⟩
  simpa using (apart e earlier).ne'

theorem InOrder.nodup {es : List (String × Value)} (order : InOrder es) : es.Nodup :=
  order.imp fun before same => before.ne (congrArg Prod.fst same)

/-- Entries in order are known by what every key stands for. -/
theorem eq_of_lookup {es fs : List (String × Value)} (order : InOrder es) (order' : InOrder fs)
    (same : ∀ k, es.lookup k = fs.lookup k) : es = fs := by
  have members : es.Perm fs := by
    refine (List.perm_ext_iff_of_nodup order.nodup order'.nodup).mpr ?_
    rintro ⟨k, v⟩
    constructor
    · intro member
      exact mem_of_lookup ((same k).symm.trans (lookup_of_mem order member))
    · intro member
      exact mem_of_lookup ((same k).trans (lookup_of_mem order' member))
  refine members.eq_of_pairwise ?_ order order'
  intro e f _ _ before after
  exact absurd (before.trans after) (lt_irrefl _)

/-- A key that is there already gets another value in its place. -/
theorem put_of_lookup {k : String} {v : Value} {es : List (String × Value)} (order : InOrder es)
    (found : es.lookup k = some v) :
    ∃ before after, es = before ++ (k, v) :: after ∧
      ∀ w, put k w es = before ++ (k, w) :: after := by
  obtain ⟨before, after, rfl, -⟩ := List.lookup_eq_some_iff.mp found
  refine ⟨before, after, rfl, fun w => ?_⟩
  clear found
  induction before with
  | nil => simp [put]
  | cons e before ih =>
    obtain ⟨behind, rest⟩ := List.pairwise_cons.mp order
    have earlier : e.1 < k :=
      behind (k, v) (List.mem_append_right before List.mem_cons_self)
    simp only [List.cons_append, put, if_neg earlier.ne, if_neg earlier.le.not_gt, ih rest]

namespace Value

/-- The entries of a dictionary; any other value has none. -/
def entries : Value → List (String × Value)
  | dict _ es => es
  | _ => []

@[simp]
theorem entries_dict (o : Origin) (es : List (String × Value)) : (dict o es).entries = es := rfl

theorem Ordered.inOrder {v : Value} (h : v.Ordered) : InOrder v.entries := by
  cases h with
  | scalar => exact .nil
  | list => exact .nil
  | dict keys values => exact keys

theorem Ordered.of_lookup {v w : Value} {k : String} (h : v.Ordered)
    (found : v.entries.lookup k = some w) : w.Ordered := by
  cases h with
  | scalar => cases found
  | list => cases found
  | dict keys values => exact values _ (mem_of_lookup found)

end Value

/-- A dictionary over anything is one, with its entries over those that are there. -/
theorem over_dict (a : Value) (o : Origin) {es : List (String × Value)} (order : InOrder es) :
    a.over (.dict o es) = .dict o (entriesOver a.entries es) := by
  have alone : entriesOver [] es = es := by
    refine eq_of_lookup (inOrder_entriesOver .nil) order fun k => ?_
    rw [lookup_entriesOver order, List.lookup_nil, Option.merge_none_left]
  cases a with
  | dict => rfl
  | scalar => exact congrArg _ alone.symm
  | list => exact congrArg _ alone.symm

theorem entriesOver_put {ds ts : List (String × Value)} (order : InOrder ds) (order' : InOrder ts)
    (key : String) (v : Value) :
    entriesOver ds (put key v ts) =
      put key ((ds.lookup key).elim v (·.over v)) (entriesOver ds ts) := by
  refine eq_of_lookup (inOrder_entriesOver order) (inOrder_put (inOrder_entriesOver order) _ _)
    fun k => ?_
  rw [lookup_entriesOver (inOrder_put order' key v), lookup_put, lookup_put,
    lookup_entriesOver order']
  by_cases same : k = key
  · subst same
    rw [if_pos rfl, if_pos rfl]
    cases ds.lookup k <;> rfl
  · rw [if_neg same, if_neg same]

namespace Variable

open Value

/-! ## Values under paths -/

/-- What a value under a path makes of a value that may be there already. -/
def nestOver (v : Value) (p : List String) (old : Option Value) : Value :=
  old.elim (nest v p) (·.over (nest v p))

/-- A value under a path only changes the entry of the first key. -/
theorem over_nest_cons (a v : Value) (k : String) (p : List String) :
    a.over (nest v (k :: p)) =
      .dict .environment (put k (nestOver v p (a.entries.lookup k)) a.entries) := by
  cases a with
  | scalar => rfl
  | list => rfl
  | dict o es =>
    simp only [nest, Value.over, entriesOver, entries]
    cases es.lookup k <;> rfl

theorem at?_nest (v : Value) (p : List String) : (nest v p).at? p = some v := by
  induction p with
  | nil => rfl
  | cons k p ih => simp [nest, Value.at?, ih]

theorem clear_nest {v : Value} (no_dict : ¬v.IsDict) (p : List String) :
    (nest v p).Clear p := by
  refine ⟨?_, fun w found => ?_⟩
  · intro q w below other found
    induction p generalizing q with
    | nil => exact absurd (List.prefix_nil.mp below) other
    | cons k p ih =>
      cases q with
      | nil => exact Option.some.inj found ▸ True.intro
      | cons j q =>
        obtain ⟨rfl, under⟩ := List.cons_prefix_cons.mp below
        exact ih q under (by simpa using other) (by simpa [nest, Value.at?] using found)
  · rw [at?_nest] at found
    exact Option.some.inj found ▸ no_dict

/-- A value under a path says nothing beside it. -/
theorem at?_nest_beside (v : Value) {p q : List String} (off : ¬q <+: p) (apart : ¬p <+: q) :
    (nest v p).at? q = none := by
  induction p generalizing q with
  | nil => exact absurd List.nil_prefix apart
  | cons k p ih =>
    cases q with
    | nil => exact absurd List.nil_prefix off
    | cons j q =>
      simp only [nest, Value.at?, lookup_cons, List.lookup_nil]
      by_cases same : j = k
      · subst same
        rw [if_pos rfl]
        refine ih ?_ ?_
        · simpa [List.cons_prefix_cons] using off
        · simpa [List.cons_prefix_cons] using apart
      · rw [if_neg same]
        rfl

theorem agreeBeside_nest (v : Value) (o : Origin) (p : List String) :
    Value.AgreeBeside p (nest v p) (.dict o []) := by
  intro q off apart
  rw [at?_nest_beside v off apart]
  cases q with
  | nil => exact absurd List.nil_prefix off
  | cons k q => rfl

end Variable

end FeedTraffic.Settings
