import FeedTraffic.Proofs.Nesting
import FeedTraffic.Proofs.Precedence

/-!
# The order of variables

A variable puts one value under its path.  Two variables neither of whose paths leads to the
other's touch different entries of the tree, so it does not matter which comes first; and the tree
is all that loading sees of an environment.
-/

namespace FeedTraffic.Settings

namespace Variable

open Value

/-! ## Two values -/

def add (earlier : Value) (a : String × String) : Value :=
  (own? a).elim earlier earlier.over

/-- Neither of two variables is set at or below the path of the other, if both have one. -/
def Apart (a b : String × String) : Prop :=
  ∀ p ∈ path? a.1, ∀ q ∈ path? b.1, ¬p <+: q ∧ ¬q <+: p

instance (a b : String × String) : Decidable (Apart a b) :=
  inferInstanceAs (Decidable (∀ p ∈ path? a.1, ∀ q ∈ path? b.1, ¬p <+: q ∧ ¬q <+: p))

theorem Apart.symm {a b : String × String} (h : Apart a b) : Apart b a :=
  fun q there p here => (h p here q there).symm

end Variable

end FeedTraffic.Settings
