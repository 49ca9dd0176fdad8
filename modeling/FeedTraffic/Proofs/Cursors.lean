import FeedTraffic.Feed.Request
import FeedTraffic.Proofs.Draws

/-!
# Requests with cursors

A cursor is one more parameter, `before` or `after`, at a time between two bounds back.  At most one
is drawn.  What is true of a request whatever cursor it has stays true when one is drawn.
-/

namespace FeedTraffic.Feed.Request

open FeedTraffic.Random

def IgnoresCursors (p : Request → Prop) : Prop :=
  ∀ r name value, name = "before" ∨ name = "after" → p r → p (r.param name value)

/-- A request with a cursor of a name, between two numbers of seconds back. -/
def HasCursor (name : String) (lo hi now : Nat) (r r' : Request) : Prop :=
  ∃ back, lo ≤ back ∧ back ≤ hi ∧ r' = r.param name (toString (now - back))

variable (r : Request) (now : Nat)

theorem before_yields : Yields (r.before now) (HasCursor "before" 3600 86400 now r) :=
  Yields.bind (betweenWide_bounds (by decide)) fun back drawn =>
    Yields.pure ⟨back, drawn.1, drawn.2, rfl⟩

theorem after_yields : Yields (r.after now) (HasCursor "after" 86400 172800 now r) :=
  Yields.bind (betweenWide_bounds (by decide)) fun back drawn =>
    Yields.pure ⟨back, drawn.1, drawn.2, rfl⟩

theorem paginateBefore_yields (chance : Chance) :
    Yields (r.paginateBefore now chance) fun r' =>
      r' = r ∨ HasCursor "before" 3600 86400 now r r' := by
  refine Yields.bind (Yields.trivial _) fun _ _ => ?_
  exact Yields.ite ((before_yields r now).mono fun _ => Or.inr) (Yields.pure (Or.inl rfl))

theorem paginate_yields :
    Yields (r.paginate now) fun r' =>
      r' = r ∨ HasCursor "before" 3600 86400 now r r' ∨
        HasCursor "after" 86400 172800 now r r' := by
  refine Yields.bind (Yields.trivial _) fun _ _ => ?_
  refine Yields.ite ((before_yields r now).mono fun _ drawn => Or.inr (Or.inl drawn)) ?_
  refine Yields.bind (Yields.trivial _) fun _ _ => ?_
  exact Yields.ite ((after_yields r now).mono fun _ drawn => Or.inr (Or.inr drawn))
    (Yields.pure (Or.inl rfl))

end FeedTraffic.Feed.Request
