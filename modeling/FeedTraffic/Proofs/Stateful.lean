import Mathlib.Data.List.Forall2

/-!
# Computations with a state

Laws of steps that change a state, one after another.  A run over a list does its first step and
then the rest from where that step left the state.  What every single step keeps, a run keeps, and
two runs whose steps go together go together.
-/

namespace FeedTraffic.Stateful

variable {σ α β : Type}

theorem mapM_cons_apply (f : α → StateM σ β) (a : α) (as : List α) (s : σ) :
    (a :: as).mapM f s =
      let first := f a s
      let rest := as.mapM f first.2
      (first.1 :: rest.1, rest.2) := by
  rw [List.mapM_cons]
  rfl

theorem length_mapM (f : α → StateM σ β) (as : List α) (s : σ) :
    (as.mapM f s).1.length = as.length := by
  induction as generalizing s with
  | nil => rfl
  | cons a as ih =>
    rw [mapM_cons_apply]
    exact congrArg (· + 1) (ih _)

/-- From every state with a property, the result and the state that is left are as they should
be. -/
def Ensures (pre : σ → Prop) (c : StateM σ α) (post : α → σ → Prop) : Prop :=
  ∀ s, pre s → post (c s).1 (c s).2

namespace Ensures

variable {pre inv : σ → Prop} {c : StateM σ α} {mid : α → σ → Prop} {post : β → σ → Prop}

theorem pure {a : α} {post : α → σ → Prop} (h : ∀ s, pre s → post a s) :
    Ensures pre (Pure.pure a) post := h

theorem bind {f : α → StateM σ β} (first : Ensures pre c mid)
    (later : ∀ a, Ensures (mid a) (f a) post) : Ensures pre (c >>= f) post := by
  intro s start
  exact later (c s).1 (c s).2 (first s start)

theorem mono {post : α → σ → Prop} (h : Ensures pre c mid) (weaker : ∀ a s, mid a s → post a s) :
    Ensures pre c post := fun s start => weaker _ _ (h s start)

theorem ite {p : Prop} [Decidable p] {d : StateM σ α} (yes : p → Ensures pre c mid)
    (no : ¬p → Ensures pre d mid) : Ensures pre (if p then c else d) mid := by
  by_cases h : p
  · rw [if_pos h]
    exact yes h
  · rw [if_neg h]
    exact no h

/-- A fact that does not depend on the state may be used on its own. -/
theorem given {p : Prop} (h : p → Ensures pre c mid) : Ensures (fun s => p ∧ pre s) c mid :=
  fun s start => h start.1 s start.2

theorem forM {f : α → StateM σ PUnit} (as : List α)
    (step : ∀ a ∈ as, Ensures inv (f a) fun _ => inv) :
    Ensures inv (as.forM f) fun _ => inv := by
  induction as with
  | nil => exact fun s start => start
  | cons a as ih =>
    refine bind (step a List.mem_cons_self) fun _ => ih ?_
    exact fun b member => step b (List.mem_cons_of_mem a member)

/-- What every step keeps, a run keeps, and each result is as its step ensures. -/
theorem mapM {f : α → StateM σ β} {result : α → β → Prop}
    (step : ∀ a, Ensures inv (f a) fun b s => result a b ∧ inv s) (as : List α) :
    Ensures inv (as.mapM f) fun bs s => List.Forall₂ result as bs ∧ inv s := by
  induction as with
  | nil => exact fun s start => ⟨List.Forall₂.nil, start⟩
  | cons a as ih =>
    intro s start
    rw [mapM_cons_apply]
    obtain ⟨first, kept⟩ := step a s start
    obtain ⟨rest, left⟩ := ih (f a s).2 kept
    exact ⟨List.Forall₂.cons first rest, left⟩

theorem mapM_keeps {f : α → StateM σ β} (step : ∀ a, Ensures inv (f a) fun _ => inv)
    (as : List α) : Ensures inv (as.mapM f) fun _ => inv := by
  have keeps (a : α) : Ensures inv (f a) fun _ s => True ∧ inv s :=
    mono (step a) fun _ _ kept => ⟨trivial, kept⟩
  exact mono (mapM keeps as) fun _ _ => And.right

end Ensures

/-- Two computations go together: from related states they give the same result, and they leave
related states. -/
def InStep {τ : Type} (R : σ → τ → Prop) (c : StateM σ α) (d : StateM τ α) : Prop :=
  ∀ s t, R s t → (c s).1 = (d t).1 ∧ R (c s).2 (d t).2

namespace InStep

variable {τ : Type} {R : σ → τ → Prop} {c : StateM σ α} {d : StateM τ α}

theorem pure (a : α) : InStep R (Pure.pure a : StateM σ α) (Pure.pure a : StateM τ α) :=
  fun _ _ related => ⟨rfl, related⟩

theorem bind {f : α → StateM σ β} {g : α → StateM τ β} (first : InStep R c d)
    (later : ∀ a, InStep R (f a) (g a)) : InStep R (c >>= f) (d >>= g) := by
  intro s t related
  obtain ⟨same, left⟩ := first s t related
  have other : (d >>= g) t = g (c s).1 (d t).2 := by
    rw [same]
    rfl
  rw [other]
  exact later (c s).1 (c s).2 (d t).2 left

theorem mapM {f : α → StateM σ β} {g : α → StateM τ β} (step : ∀ a, InStep R (f a) (g a))
    (as : List α) : InStep R (as.mapM f) (as.mapM g) := by
  induction as with
  | nil => exact InStep.pure []
  | cons a as ih =>
    rw [List.mapM_cons, List.mapM_cons]
    exact bind (step a) fun b => bind ih fun bs => InStep.pure (b :: bs)

end InStep

end FeedTraffic.Stateful
