import FeedTraffic.Settings.Value
import Mathlib.Data.List.Infix
import Mathlib.Data.String.Basic

/-!
# Trees over trees

A tree is looked at through paths of keys.  Where a later tree has nothing but dictionaries above
a path, what both trees have at the path is put together and nothing else matters; a value that is
no dictionary is taken whole from one of them.
-/

namespace FeedTraffic.Settings

/-! ## Entries in order -/

/-- Entries in the order of their keys, each key once. -/
def InOrder (es : List (String × Value)) : Prop := es.Pairwise fun a b => a.1 < b.1

theorem lookup_cons (j k : String) (v : Value) (es : List (String × Value)) :
    ((k, v) :: es).lookup j = if j = k then some v else es.lookup j := by
  by_cases same : j = k
  · simp [same]
  · have other : (j == k) = false := beq_eq_false_iff_ne.mpr same
    simp [List.lookup_cons, other, same]

theorem lookup_put (j key : String) (v : Value) (es : List (String × Value)) :
    (put key v es).lookup j = if j = key then some v else es.lookup j := by
  induction es with
  | nil => rw [put, lookup_cons]
  | cons e es ih =>
    obtain ⟨k, w⟩ := e
    simp only [put]
    split
    · rename_i same
      subst same
      rw [lookup_cons, lookup_cons]
      split <;> rfl
    · rename_i other
      split
      · rw [lookup_cons]
      · rw [lookup_cons, lookup_cons, ih]
        by_cases first : j = k
        · have different : j ≠ key := first ▸ other
          rw [if_pos first, if_neg different, if_pos first]
        · rw [if_neg first, if_neg first]

theorem mem_put {key : String} {v : Value} {es : List (String × Value)} {e : String × Value}
    (member : e ∈ put key v es) : e = (key, v) ∨ e ∈ es := by
  induction es with
  | nil => simpa [put] using member
  | cons first es ih =>
    obtain ⟨k, w⟩ := first
    simp only [put] at member
    split at member
    · rcases List.mem_cons.mp member with same | later
      · exact Or.inl same
      · exact Or.inr (List.mem_cons_of_mem _ later)
    · split at member
      · rcases List.mem_cons.mp member with same | later
        · exact Or.inl same
        · exact Or.inr later
      · rcases List.mem_cons.mp member with same | later
        · exact Or.inr (same ▸ List.mem_cons_self)
        · exact (ih later).imp_right (List.mem_cons_of_mem _)

theorem inOrder_put {es : List (String × Value)} (order : InOrder es) (key : String) (v : Value) :
    InOrder (put key v es) := by
  induction es with
  | nil => exact List.pairwise_singleton _ _
  | cons first es ih =>
    obtain ⟨k, w⟩ := first
    obtain ⟨behind, rest⟩ := List.pairwise_cons.mp order
    simp only [put]
    split
    · rename_i same
      subst same
      exact List.pairwise_cons.mpr ⟨behind, rest⟩
    · rename_i other
      split
      · rename_i before
        refine List.pairwise_cons.mpr ⟨?_, order⟩
        intro e member
        rcases List.mem_cons.mp member with rfl | later
        · exact before
        · exact lt_trans before (behind e later)
      · rename_i not_before
        refine List.pairwise_cons.mpr ⟨?_, ih rest⟩
        intro e member
        rcases mem_put member with rfl | later
        · exact lt_of_le_of_ne (not_lt.mp not_before) other
        · exact behind e later

theorem lookup_eq_none_of_inOrder {k : String} {v : Value} {es : List (String × Value)}
    (order : InOrder ((k, v) :: es)) : es.lookup k = none := by
  rw [List.lookup_eq_none_iff]
  intro e member
  have behind : k < e.1 := (List.pairwise_cons.mp order).1 e member
  simpa using behind.ne

theorem mem_of_lookup {k : String} {v : Value} {es : List (String × Value)}
    (found : es.lookup k = some v) : (k, v) ∈ es := by
  obtain ⟨before, after, rfl, -⟩ := List.lookup_eq_some_iff.mp found
  exact List.mem_append_right before List.mem_cons_self

/-! ## Trees in order -/

namespace Value

def IsDict : Value → Prop
  | dict _ _ => True
  | _ => False

instance : DecidablePred IsDict
  | dict _ _ => isTrue True.intro
  | scalar _ _ => isFalse id
  | list _ _ => isFalse id

/-- Every dictionary down to the first value that is none has its entries in order. -/
inductive Ordered : Value → Prop where
  | scalar (o : Origin) (s : Scalar) : Ordered (.scalar o s)
  | list (o : Origin) (vs : List Value) : Ordered (.list o vs)
  | dict {o : Origin} {es : List (String × Value)} (keys : InOrder es)
      (values : ∀ e ∈ es, Ordered e.2) : Ordered (.dict o es)

theorem Ordered.entries {o : Origin} {es : List (String × Value)} (h : Ordered (.dict o es)) :
    InOrder es ∧ ∀ e ∈ es, e.2.Ordered := by
  cases h with
  | dict keys values => exact ⟨keys, values⟩

theorem Ordered.empty (o : Origin) : Ordered (.dict o []) := .dict .nil nofun

theorem Ordered.singleton {v : Value} (o : Origin) (key : String) (h : v.Ordered) :
    Ordered (.dict o [(key, v)]) :=
  .dict (List.pairwise_singleton _ _) (by simpa using h)

/-- Entries may be given in any order. -/
theorem Ordered.ofEntries (o : Origin) {es : List (String × Value)}
    (values : ∀ e ∈ es, e.2.Ordered) : (Value.ofEntries o es).Ordered := by
  have built : ∀ done : List (String × Value), InOrder done → (∀ e ∈ done, e.2.Ordered) →
      Ordered (.dict o (es.foldl (fun done e => put e.1 e.2 done) done)) := by
    induction es with
    | nil => exact fun done order known => .dict order known
    | cons first es ih =>
      intro done order known
      refine ih (fun e later => values e (List.mem_cons_of_mem _ later)) _
        (inOrder_put order _ _) ?_
      intro e member
      rcases mem_put member with rfl | earlier
      · exact values first List.mem_cons_self
      · exact known e earlier
  exact built [] .nil nofun

end Value

theorem inOrder_entriesOver {earlier later : List (String × Value)} (order : InOrder earlier) :
    InOrder (entriesOver earlier later) := by
  induction later generalizing earlier with
  | nil => simpa [entriesOver] using order
  | cons e es ih =>
    simp only [entriesOver]
    exact ih (inOrder_put order _ _)

/-- What a key stands for after one dictionary has been put over another. -/
theorem lookup_entriesOver {earlier later : List (String × Value)} (order : InOrder later)
    (j : String) :
    (entriesOver earlier later).lookup j =
      Option.merge Value.over (earlier.lookup j) (later.lookup j) := by
  induction later generalizing earlier with
  | nil => simp only [entriesOver, List.lookup_nil, Option.merge_none_right]
  | cons e es ih =>
    obtain ⟨k, v⟩ := e
    simp only [entriesOver]
    rw [ih (List.pairwise_cons.mp order).2, lookup_put]
    by_cases same : j = k
    · subst same
      rw [lookup_eq_none_of_inOrder order]
      cases earlier.lookup j <;> simp
    · rw [if_neg same, lookup_cons, if_neg same]

theorem ordered_entriesOver {earlier later : List (String × Value)}
    (known : ∀ e ∈ earlier, e.2.Ordered)
    (values : ∀ e ∈ later, ∀ old : Value, old.Ordered → (old.over e.2).Ordered)
    (alone : ∀ e ∈ later, e.2.Ordered) : ∀ e ∈ entriesOver earlier later, e.2.Ordered := by
  induction later generalizing earlier with
  | nil => simpa [entriesOver] using known
  | cons first es ih =>
    obtain ⟨k, v⟩ := first
    simp only [entriesOver]
    refine ih ?_ (fun e member => values e (List.mem_cons_of_mem _ member))
      (fun e member => alone e (List.mem_cons_of_mem _ member))
    intro e member
    rcases mem_put member with rfl | before
    · cases found : earlier.lookup k with
      | none => exact alone (k, v) List.mem_cons_self
      | some old => exact values (k, v) List.mem_cons_self old (known _ (mem_of_lookup found))
    · exact known e before

namespace Value

theorem Ordered.over {a b : Value} (ha : a.Ordered) (hb : b.Ordered) : (a.over b).Ordered := by
  induction hb generalizing a with
  | scalar o s => simpa [Value.over] using Ordered.scalar o s
  | list o vs => simpa [Value.over] using Ordered.list o vs
  | @dict o es keys values ih =>
    cases ha with
    | scalar => simpa [Value.over] using Ordered.dict keys values
    | list => simpa [Value.over] using Ordered.dict keys values
    | dict order known =>
      simp only [Value.over]
      refine .dict (inOrder_entriesOver order) ?_
      exact ordered_entriesOver known (fun e member old h => ih e member h) values

/-! ## Paths -/

/-- What a tree has at a path. -/
def at? : List String → Value → Option Value
  | [], v => some v
  | k :: p, dict _ es => (es.lookup k).bind (at? p)
  | _ :: _, _ => none

/-- A tree has nothing but dictionaries above a path, as far as it goes. -/
def LeadsTo (v : Value) (p : List String) : Prop :=
  ∀ q w, q <+: p → q ≠ p → v.at? q = some w → w.IsDict

/-- A tree has nothing but dictionaries above a path and no dictionary at it. -/
def Clear (v : Value) (p : List String) : Prop :=
  v.LeadsTo p ∧ ∀ w, v.at? p = some w → ¬w.IsDict

theorem clear_iff {v : Value} {p : List String} :
    v.Clear p ↔ (∀ q ∈ p.inits, q ≠ p → ∀ w ∈ v.at? q, w.IsDict) ∧ ∀ w ∈ v.at? p, ¬w.IsDict := by
  refine and_congr_left' ⟨fun h q below other w found => ?_, fun h q w below other found => ?_⟩
  · exact h q w ((List.mem_inits q p).mp below) other found
  · exact h q ((List.mem_inits q p).mpr below) other w found

instance (v : Value) (p : List String) : Decidable (v.Clear p) := decidable_of_iff _ clear_iff.symm

theorem leadsTo_cons {v : Value} {k : String} {p : List String} (h : v.LeadsTo (k :: p)) :
    ∃ o es, v = dict o es ∧ ∀ w, es.lookup k = some w → w.LeadsTo p := by
  have top : v.IsDict := h [] v List.nil_prefix (List.cons_ne_nil k p).symm rfl
  match v, top with
  | dict o es, _ =>
    refine ⟨o, es, rfl, fun w found q u below other at_q => ?_⟩
    refine h (k :: q) u (List.cons_prefix_cons.mpr ⟨rfl, below⟩) (by simpa using other) ?_
    simpa [at?, found] using at_q

/-- Where only dictionaries of the later tree are above a path, the path decides. -/
theorem at?_over {a b : Value} {p : List String} (hb : b.Ordered) (leads : b.LeadsTo p) :
    (a.over b).at? p = Option.merge Value.over (a.at? p) (b.at? p) := by
  induction p generalizing a b with
  | nil => rfl
  | cons k p ih =>
    obtain ⟨o, es, rfl, below⟩ := leadsTo_cons leads
    obtain ⟨order, values⟩ := hb.entries
    cases a with
    | scalar => simp [Value.over, at?]
    | list => simp [Value.over, at?]
    | dict o' old =>
      simp only [Value.over, at?, lookup_entriesOver order]
      cases later : es.lookup k with
      | none => cases old.lookup k <;> simp
      | some v =>
        cases earlier : old.lookup k with
        | none => simp
        | some u =>
          simpa using ih (values _ (mem_of_lookup later)) (below v later)

theorem over_of_not_isDict {a b : Value} (h : ¬b.IsDict) : a.over b = b := by
  cases b with
  | scalar => rfl
  | list => rfl
  | dict => exact absurd True.intro h

theorem isDict_over {a b : Value} (h : b.IsDict) : (a.over b).IsDict := by
  cases b with
  | dict => cases a <;> simp [Value.over, IsDict]
  | scalar => exact absurd h id
  | list => exact absurd h id

theorem LeadsTo.mono {v : Value} {p q : List String} (h : v.LeadsTo p) (below : q <+: p) :
    v.LeadsTo q := by
  intro r w under other found
  refine h r w (under.trans below) ?_ found
  rintro rfl
  exact other (under.eq_of_length_le below.length_le)

theorem LeadsTo.over {a b : Value} {p : List String} (hb : b.Ordered) (earlier : a.LeadsTo p)
    (later : b.LeadsTo p) : (a.over b).LeadsTo p := by
  intro q w below other found
  rw [at?_over hb (later.mono below)] at found
  cases new : b.at? q with
  | none =>
    rw [new, Option.merge_none_right] at found
    exact earlier q w below other found
  | some v =>
    have dict : v.IsDict := later q v below other new
    cases old : a.at? q with
    | none =>
      simp only [old, new, Option.merge_none_left, Option.some.injEq] at found
      exact found ▸ dict
    | some u =>
      simp only [old, new, Option.merge_some_some, Option.some.injEq] at found
      exact found ▸ isDict_over dict

/-- At a path that the later tree is clear at, it wins. -/
theorem at?_over_of_clear {a b : Value} {p : List String} (hb : b.Ordered) (clear : b.Clear p) :
    (a.over b).at? p = (b.at? p).or (a.at? p) := by
  rw [at?_over hb clear.1]
  cases later : b.at? p with
  | none => simp
  | some v =>
    cases earlier : a.at? p with
    | none => simp
    | some u => simp [over_of_not_isDict (clear.2 v later)]

theorem Clear.over {a b : Value} {p : List String} (hb : b.Ordered) (earlier : a.Clear p)
    (later : b.Clear p) : (a.over b).Clear p := by
  refine ⟨earlier.1.over hb later.1, ?_⟩
  intro w found
  rw [at?_over_of_clear hb later] at found
  rcases Option.or_eq_some_iff.mp found with new | ⟨-, old⟩
  · exact later.2 w new
  · exact earlier.2 w old

theorem clear_empty (o : Origin) {p : List String} (filled : p ≠ []) : (dict o []).Clear p := by
  constructor
  · intro q w below other found
    cases q with
    | nil =>
      rw [← Option.some.inj found]
      exact True.intro
    | cons k q => simp [at?] at found
  · intro w found
    cases p with
    | nil => exact absurd rfl filled
    | cons k p => simp [at?] at found

/-- A value that is no dictionary is taken whole from one of the trees. -/
theorem at?_over_whole {a b w : Value} {p : List String} (hb : b.Ordered) (no_dict : ¬w.IsDict)
    (found : (a.over b).at? p = some w) : a.at? p = some w ∨ b.at? p = some w := by
  induction p generalizing a b with
  | nil =>
    right
    by_cases later : b.IsDict
    · have both : (a.over b).IsDict := isDict_over later
      rw [Option.some.inj found] at both
      exact absurd both no_dict
    · rwa [over_of_not_isDict later] at found
  | cons k p ih =>
    by_cases later : b.IsDict
    · match b, later with
      | dict o es, _ =>
        obtain ⟨order, values⟩ := hb.entries
        cases a with
        | scalar => exact Or.inr (by simpa [Value.over] using found)
        | list => exact Or.inr (by simpa [Value.over] using found)
        | dict o' old =>
          simp only [Value.over, at?, lookup_entriesOver order] at found ⊢
          cases new : es.lookup k with
          | none => exact Or.inl (by simpa [new] using found)
          | some v =>
            cases earlier : old.lookup k with
            | none => exact Or.inr (by simpa [new, earlier] using found)
            | some u =>
              have joined : (u.over v).at? p = some w := by simpa [new, earlier] using found
              simpa using ih (values _ (mem_of_lookup new)) joined
    · right
      rwa [over_of_not_isDict later] at found

/-! ## Open paths and paths beside -/

def IsList : Value → Prop
  | list _ _ => True
  | _ => False

instance : DecidablePred IsList
  | list _ _ => isTrue True.intro
  | scalar _ _ => isFalse id
  | dict _ _ => isFalse id

/-- A tree has values above a path, and none of them is a list. -/
def OpenAt (v : Value) (p : List String) : Prop :=
  ∀ q, q <+: p → q ≠ p → ∃ w, v.at? q = some w ∧ ¬w.IsList

/-- Two trees have the same at every path that neither leads to another one nor comes from it. -/
def AgreeBeside (p : List String) (v w : Value) : Prop :=
  ∀ q, ¬q <+: p → ¬p <+: q → v.at? q = w.at? q

theorem OpenAt.not_isList {v : Value} {k : String} {p : List String} (h : v.OpenAt (k :: p)) :
    ¬v.IsList := by
  obtain ⟨w, same, no_list⟩ := h [] List.nil_prefix (List.cons_ne_nil k p).symm
  exact Option.some.inj same ▸ no_list

/-- Below a dictionary the path goes on. -/
theorem OpenAt.below {o : Origin} {es : List (String × Value)} {k : String} {p : List String}
    (h : (dict o es).OpenAt (k :: p)) {w : Value} (found : es.lookup k = some w) :
    w.OpenAt p := by
  intro q under other
  obtain ⟨u, at_q, no_list⟩ := h (k :: q) (List.cons_prefix_cons.mpr ⟨rfl, under⟩)
    (by simpa using other)
  exact ⟨u, by simpa [at?, found] using at_q, no_list⟩

theorem OpenAt.filled {o : Origin} {es : List (String × Value)} {k : String} {p : List String}
    (h : (dict o es).OpenAt (k :: p)) (absent : es.lookup k = none) : p = [] := by
  by_contra more
  obtain ⟨w, at_k, -⟩ := h [k] (List.cons_prefix_cons.mpr ⟨rfl, List.nil_prefix⟩)
    (by simpa using Ne.symm more)
  simp [at?, absent] at at_k

theorem openAt_singleton {v : Value} (no_list : ¬v.IsList) (k : String) : v.OpenAt [k] := by
  intro q below other
  cases q with
  | nil => exact ⟨v, rfl, no_list⟩
  | cons j q =>
    obtain ⟨rfl, rest⟩ := List.cons_prefix_cons.mp below
    exact absurd (congrArg (j :: ·) (List.prefix_nil.mp rest)) other

theorem AgreeBeside.lookup {o o' : Origin} {es es' : List (String × Value)} {j k : String}
    {p : List String} (h : AgreeBeside (k :: p) (dict o es) (dict o' es')) (other : j ≠ k) :
    es.lookup j = es'.lookup j := by
  have same := h [j] (by simp [List.cons_prefix_cons, other])
    (by simp [List.cons_prefix_cons, Ne.symm other])
  simpa [at?] using same

theorem AgreeBeside.below {o o' : Origin} {es es' : List (String × Value)} {k : String}
    {p : List String} (h : AgreeBeside (k :: p) (dict o es) (dict o' es')) {v w : Value}
    (left : es.lookup k = some v) (right : es'.lookup k = some w) : AgreeBeside p v w := by
  intro q off apart
  have same := h (k :: q) (by simpa [List.cons_prefix_cons] using off)
    (by simpa [List.cons_prefix_cons] using apart)
  simpa [at?, left, right] using same

theorem OpenAt.over {a b : Value} {p : List String} (hb : b.Ordered) (opened : a.OpenAt p)
    (leads : b.LeadsTo p) : (a.over b).OpenAt p := by
  intro q below other
  obtain ⟨w, earlier, no_list⟩ := opened q below other
  rw [at?_over hb (leads.mono below), earlier]
  cases later : b.at? q with
  | none => exact ⟨w, rfl, no_list⟩
  | some v =>
    have dict : (w.over v).IsDict := isDict_over (leads q v below other later)
    refine ⟨w.over v, rfl, fun list => ?_⟩
    cases joined : w.over v <;> simp [joined, IsDict, IsList] at dict list

theorem at?_append (p q : List String) (v : Value) :
    v.at? (p ++ q) = (v.at? p).bind (at? q) := by
  induction p generalizing v with
  | nil => rfl
  | cons k p ih =>
    cases v with
    | scalar => rfl
    | list => rfl
    | dict o es =>
      simp only [List.cons_append, at?]
      cases es.lookup k with
      | none => rfl
      | some w => exact ih w

/-- A path that neither leads to another nor comes from it leaves it at some key. -/
theorem exists_leaving {p q : List String} (off : ¬q <+: p) (apart : ¬p <+: q) :
    ∃ r k rest, q = r ++ [k] ++ rest ∧ r <+: p ∧ ¬(r ++ [k]) <+: p := by
  induction q generalizing p with
  | nil => exact absurd List.nil_prefix off
  | cons j q ih =>
    cases p with
    | nil => exact absurd List.nil_prefix apart
    | cons k p =>
      by_cases same : j = k
      · subst same
        obtain ⟨r, l, rest, rfl, below, leaves⟩ :=
          ih (by simpa [List.cons_prefix_cons] using off)
            (by simpa [List.cons_prefix_cons] using apart)
        refine ⟨j :: r, l, rest, rfl, List.cons_prefix_cons.mpr ⟨rfl, below⟩, ?_⟩
        simpa [List.cons_prefix_cons] using leaves
      · exact ⟨[], j, q, rfl, List.nil_prefix, by simp [List.cons_prefix_cons, same]⟩

/-- Trees that agree beside a path still do with others over them that agree there too. -/
theorem AgreeBeside.over {a a' b b' : Value} {p : List String} (hb : b.Ordered)
    (hb' : b'.Ordered) (leads : b.LeadsTo p) (leads' : b'.LeadsTo p)
    (earlier : AgreeBeside p a a') (later : AgreeBeside p b b') :
    AgreeBeside p (a.over b) (a'.over b') := by
  intro q off apart
  obtain ⟨r, k, rest, rfl, below, leaves⟩ := exists_leaving off apart
  have beside : ¬p <+: r ++ [k] := fun under => apart (under.trans (List.prefix_append _ _))
  have leaving {v : Value} (leads : v.LeadsTo p) : v.LeadsTo (r ++ [k]) := by
    intro u w under other found
    rcases List.prefix_concat_iff.mp under with same | under
    · exact absurd same other
    · refine leads u w (under.trans below) ?_ found
      rintro rfl
      exact beside (under.trans (List.prefix_append _ _))
  rw [at?_append (r ++ [k]), at?_append (r ++ [k]), at?_over hb (leaving leads),
    at?_over hb' (leaving leads'), earlier _ leaves beside, later _ leaves beside]

end Value

end FeedTraffic.Settings
