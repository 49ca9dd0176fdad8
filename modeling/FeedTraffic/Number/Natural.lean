/-!
# Powers and sums of natural numbers

Powers are those of the language itself, and sums start with its zero, also where a module sees
the algebra of a larger library.  So a bound such as `2 ^ 64` is one and the same term everywhere.
-/

attribute [instance (2000)] instPowNat
attribute [default_instance 20000] instPowNat

namespace FeedTraffic.Number

instance (priority := 2000) zeroNat : Zero Nat := ⟨0⟩

end FeedTraffic.Number
