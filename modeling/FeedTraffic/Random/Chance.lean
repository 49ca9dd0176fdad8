import FeedTraffic.Number.Shortest
import FeedTraffic.Random.Words

/-!
# Chances

A chance is a number of words out of `2^64`: the event happens when the next word is below it.
A chance of all words is certain and needs no word.  Probabilities come as doubles, and those
outside zero to one are refused.
-/

namespace FeedTraffic.Random

open FeedTraffic.Number

structure Chance where
  words : Nat
  words_le : words ≤ 2 ^ 64 := by decide
  deriving DecidableEq, Repr

structure ImproperChance where
  number : Binary64
  deriving DecidableEq, Repr

def ImproperChance.message (e : ImproperChance) : String :=
  "p=" ++ e.number.general ++ " is outside range [0.0, 1.0]"

namespace Chance

/-- The words that belong to a probability: the whole part of `p · 2^64`. -/
def ofBinary64 (p : Binary64) : Except ImproperChance Chance :=
  match p with
  | .finite negative steps =>
    if h : steps ≤ Binary64.unit ∧ (negative = false ∨ steps = 0) then
      .ok ⟨steps * 2 ^ 64 / Binary64.unit, by
        refine Nat.div_le_of_le_mul ?_
        exact Nat.mul_le_mul_right _ h.1⟩
    else .error ⟨p⟩
  | _ => .error ⟨p⟩

/-- The chances of the recipes: the words below the doubles nearest to 0.1, 0.2 and 0.3. -/
def tenth : Chance := ⟨1844674407370955264, by decide⟩
def fifth : Chance := ⟨3689348814741910528, by decide⟩
def threeTenths : Chance := ⟨5534023222112865280, by decide⟩

def happens (c : Chance) : Draw Bool :=
  if c.words = 2 ^ 64 then pure true
  else do
    let x ← next
    pure (decide (x.toNat < c.words))

end Chance

end FeedTraffic.Random
