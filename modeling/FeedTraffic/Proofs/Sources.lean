import FeedTraffic.Proofs.Trees
import FeedTraffic.Settings.Load

/-!
# The trees of the sources

Whatever a settings file or the environment says, its tree has every dictionary in order.  The
tree of an environment has at a path what the last variable says that says anything about it.
-/

namespace FeedTraffic.Settings

/-! ## The environment -/

namespace Variable

mutual

theorem literal?_ordered {fuel : Nat} {cs rest : List Char} {v : Value}
    (h : literal? fuel cs = some (v, rest)) : v.Ordered := by
  cases fuel with
  | zero => simp [literal?] at h
  | succ fuel =>
    simp only [literal?] at h
    split at h
    case h_3 =>
      simp only [bind, Option.bind_eq_some_iff, Prod.exists, pure, Option.some.injEq,
        Prod.mk.injEq] at h
      obtain ⟨es, left, read, rfl, -⟩ := h
      exact .ofEntries _ (entries?_ordered (by simp) read)
    case h_4 =>
      simp only [bind, Option.bind_eq_some_iff, Prod.exists, pure, Option.some.injEq,
        Prod.mk.injEq] at h
      obtain ⟨items, left, -, rfl, -⟩ := h
      exact .list _ _
    case h_6 => simp at h
    case h_7 =>
      simp only [bind, Option.bind_eq_some_iff, Prod.exists, Option.some.injEq,
        Prod.mk.injEq] at h
      obtain ⟨s, left, -, rfl, -⟩ := h
      exact .scalar _ _
    all_goals
      simp only [Option.some.injEq, Prod.mk.injEq] at h
      rw [← h.1]
      exact .scalar _ _

theorem entries?_ordered {fuel : Nat} {read es : List (String × Value)} {cs rest : List Char}
    (known : ∀ e ∈ read, e.2.Ordered) (h : entries? fuel read cs = some (es, rest)) :
    ∀ e ∈ es, e.2.Ordered := by
  cases fuel with
  | zero => simp [entries?] at h
  | succ fuel =>
    simp only [entries?] at h
    split at h
    · simp only [Option.some.injEq, Prod.mk.injEq] at h
      rw [← h.1]
      exact known
    · simp only [bind, Option.bind_eq_some_iff, Prod.exists] at h
      obtain ⟨key, left, -, v, more, value, h⟩ := h
      have one_more : ∀ e ∈ read ++ [(key, v)], e.2.Ordered := by
        intro e member
        rcases List.mem_append.mp member with before | last
        · exact known e before
        · rw [List.mem_singleton.mp last]
          exact literal?_ordered value
      split at h
      · exact entries?_ordered one_more h
      · simp only [pure, Option.some.injEq, Prod.mk.injEq] at h
        rw [← h.1]
        exact one_more
      · simp at h

end

theorem value_ordered (s : String) : (value s).Ordered := by
  simp only [value]
  split
  · rename_i v read
    exact literal?_ordered read
  · exact .scalar _ _

theorem nest_ordered {v : Value} (h : v.Ordered) (path : List String) : (nest v path).Ordered := by
  induction path with
  | nil => exact h
  | cons key path ih => exact .singleton _ key ih

/-- The tree of one variable, if it is a setting. -/
def own? (a : String × String) : Option Value := (path? a.1).map (nest (value a.2))

theorem own?_ordered {a : String × String} {v : Value} (h : own? a = some v) : v.Ordered := by
  obtain ⟨path, -, rfl⟩ := Option.map_eq_some_iff.mp h
  exact nest_ordered (value_ordered a.2) path

theorem tree_concat (env : List (String × String)) (a : String × String) :
    tree (env ++ [a]) =
      match own? a with
      | none => tree env
      | some v => (tree env).over v := by
  simp only [tree, List.foldl_append, List.foldl_cons, List.foldl_nil, own?]
  cases path? a.1 <;> rfl

theorem tree_ordered (env : List (String × String)) : (tree env).Ordered := by
  induction env using List.reverseRecOn with
  | nil => exact .empty _
  | append_singleton env a ih =>
    rw [tree_concat]
    split
    · exact ih
    · rename_i v own
      exact ih.over (own?_ordered own)

/-- The last variable that says anything at a path counts there. -/
theorem tree_at? {env : List (String × String)} {p : List String} (filled : p ≠ [])
    (clear : ∀ a ∈ env, ∀ v, own? a = some v → v.Clear p) :
    (tree env).Clear p ∧
      (tree env).at? p = env.reverse.findSome? fun a => (own? a).bind (Value.at? p) := by
  induction env using List.reverseRecOn with
  | nil =>
    refine ⟨Value.clear_empty _ filled, ?_⟩
    cases p with
    | nil => exact absurd rfl filled
    | cons k p => rfl
  | append_singleton env a ih =>
    obtain ⟨before, found⟩ := ih fun b member => clear b (List.mem_append_left [a] member)
    rw [tree_concat, List.reverse_concat, List.findSome?_cons]
    cases own : own? a with
    | none => exact ⟨before, by simpa using found⟩
    | some v =>
      have last : v.Clear p := clear a (List.mem_append_right env (List.mem_singleton_self a)) v own
      have order : v.Ordered := own?_ordered own
      refine ⟨before.over order last, ?_⟩
      simp only [Option.bind_some]
      rw [Value.at?_over_of_clear order last, found]
      cases v.at? p <;> rfl

end Variable

end FeedTraffic.Settings

/-! ## Settings files -/

namespace FeedTraffic.Yaml

open FeedTraffic.Settings

variable {α β : Type}

/-- What a reading gives when it does not fail. -/
def Gives (r : Reading α) (p : α → Prop) : Prop :=
  ∀ left a after, r left = some (a, after) → p a

theorem Gives.pure {p : α → Prop} {a : α} (h : p a) : Gives (Pure.pure a) p := by
  rintro left b after ⟨⟩
  exact h

theorem Gives.bind {p : α → Prop} {q : β → Prop} {r : Reading α} {f : α → Reading β}
    (first : Gives r p) (later : ∀ a, p a → Gives (f a) q) : Gives (r >>= f) q := by
  intro left b after h
  have steps : ((r left).bind fun s => f s.1 s.2) = some (b, after) := h
  obtain ⟨⟨a, between⟩, read, rest⟩ := Option.bind_eq_some_iff.mp steps
  exact later a (first left a between read) between b after rest

theorem Gives.anything (r : Reading α) : Gives r fun _ => True := fun _ _ _ _ => True.intro

theorem Gives.lift {p : α → Prop} {o : Option α} (h : ∀ a, o = some a → p a) :
    Gives (StateT.lift o) p := by
  intro left a after read
  have steps : (o.bind fun b => some (b, left)) = some (a, after) := read
  obtain ⟨b, found, same⟩ := Option.bind_eq_some_iff.mp steps
  obtain ⟨rfl, -⟩ := Prod.mk.inj (Option.some.inj same)
  exact h b found

theorem Gives.mapM {p : β → Prop} {f : α → Reading β} (h : ∀ x, Gives (f x) p) (xs : List α) :
    Gives (xs.mapM f) fun ys => ∀ y ∈ ys, p y := by
  induction xs with
  | nil => exact Gives.pure nofun
  | cons x xs ih =>
    rw [List.mapM_cons]
    refine (h x).bind fun y first => ih.bind fun ys rest => Gives.pure ?_
    exact List.forall_mem_cons.mpr ⟨first, rest⟩

theorem underTag_ordered (o : Origin) (tag : Option (List Char)) {v : Value} (h : v.Ordered) :
    (underTag o tag v).Ordered := by
  simp only [underTag]
  split
  · exact .singleton o _ h
  · exact h

theorem scalarValue_ordered {o : Origin} {tag : Option (List Char)} {text : List Char}
    {plain : Bool} {v : Value} (h : scalarValue o tag text plain = some v) : v.Ordered := by
  simp only [scalarValue, bind, pure] at h
  split at h <;>
    · obtain ⟨s, -, made⟩ := Option.bind_eq_some_iff.mp h
      rw [← Option.some.inj made]
      exact underTag_ordered o _ (.scalar o s)

theorem value_ordered (o : Origin) (nodes : Nodes) (depth : Nat) (n : Node) :
    Gives (value o nodes depth n) Value.Ordered := by
  induction depth generalizing n with
  | zero =>
    rw [value]
    refine (Gives.anything _).bind fun n _ => ?_
    split
    · exact Gives.lift fun v => scalarValue_ordered
    · rintro left v after ⟨⟩
  | succ depth ih =>
    rw [value]
    refine (Gives.anything _).bind fun n _ => ?_
    split
    · exact Gives.lift fun v => scalarValue_ordered
    · refine (Gives.anything _).bind fun vs _ => Gives.pure ?_
      exact underTag_ordered o _ (.list o vs)
    · rename_i tag entries
      refine (Gives.mapM (p := fun e : String × Value => e.2.Ordered) ?_ entries).bind
        fun es values => Gives.pure ?_
      · rintro ⟨k, v⟩
        exact (Gives.anything _).bind fun key _ => (ih v).bind fun w order => Gives.pure order
      exact underTag_ordered o tag (.ofEntries o values)
    · rintro left v after ⟨⟩

theorem documentValue_ordered {o : Origin} {events : List Event} {v : Value}
    (h : documentValue o events = some v) : v.Ordered := by
  simp only [documentValue, bind, Option.bind_eq_some_iff, Prod.exists] at h
  obtain ⟨linked, targets, -, h⟩ := h
  split at h
  · rw [← Option.some.inj h]
    exact .empty o
  · obtain ⟨node, -, h⟩ := Option.bind_eq_some_iff.mp h
    split at h
    · rw [← Option.some.inj h]
      exact .empty o
    · obtain ⟨⟨w, left⟩, read, same⟩ := Option.bind_eq_some_iff.mp h
      rw [← Option.some.inj same]
      exact value_ordered o _ _ _ _ w left read
    · cases h

theorem settings?_ordered {o : Origin} {text : String} {v : Value}
    (h : settings? o text = some v) : v.Ordered := by
  simp only [settings?, bind, Option.bind_eq_some_iff] at h
  obtain ⟨tokens, -, events, -, document⟩ := h
  exact documentValue_ordered document

end FeedTraffic.Yaml
