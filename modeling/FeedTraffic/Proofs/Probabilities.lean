import FeedTraffic.Random.Chance
import Mathlib.Algebra.Order.Floor.Semifield
import Mathlib.Data.Rat.Floor
import Mathlib.Tactic.Positivity

/-!
# Numbers as probabilities

A number is a probability if it is finite and lies between zero and one, both included.  A
probability `q` becomes the chance of `q · 2^64` words, rounded down.  Only one itself is certain,
and zero never happens.
-/

namespace FeedTraffic.Number.Binary64

def value? : Binary64 → Option ℚ
  | .finite negative steps => some (if negative then -(steps / unit) else steps / unit)
  | _ => none

def IsProbability (p : Binary64) : Prop := ∃ q, p.value? = some q ∧ 0 ≤ q ∧ q ≤ 1

theorem unit_pos : (0 : ℚ) < unit := by
  rw [Nat.cast_pos, unit]
  positivity

theorem isProbability_finite_iff {negative : Bool} {steps : Nat} :
    (finite negative steps).IsProbability ↔ steps ≤ unit ∧ (negative = false ∨ steps = 0) := by
  have below : (steps : ℚ) / unit ≤ 1 ↔ steps ≤ unit := by
    rw [div_le_one unit_pos, Nat.cast_le]
  have above : (0 : ℚ) ≤ steps / unit := by positivity
  cases negative with
  | false =>
    simp only [IsProbability, value?, Bool.false_eq_true, if_false, Option.some.injEq,
      exists_eq_left', below, above, true_and, true_or, and_true]
  | true =>
    have least : (steps : ℚ) / unit ≤ 0 ↔ steps = 0 := by
      rw [div_le_iff₀ unit_pos, zero_mul, Nat.cast_nonpos]
    have largest : -((steps : ℚ) / unit) ≤ 1 := by linarith
    simp only [IsProbability, value?, if_true, Option.some.injEq, exists_eq_left',
      Left.nonneg_neg_iff, least, largest, and_true, Bool.true_eq_false, false_or]
    constructor
    · rintro rfl
      exact ⟨Nat.zero_le _, rfl⟩
    · exact And.right

end FeedTraffic.Number.Binary64

namespace FeedTraffic.Random.Chance

open FeedTraffic.Number

/-- What is no probability is refused, and nothing else is. -/
theorem ofBinary64_eq_error_iff {p : Binary64} {fault : ImproperChance} :
    ofBinary64 p = .error fault ↔ ¬p.IsProbability ∧ fault = ⟨p⟩ := by
  have refused : ofBinary64 p = .error ⟨p⟩ → ¬p.IsProbability →
      (ofBinary64 p = .error fault ↔ ¬p.IsProbability ∧ fault = ⟨p⟩) := by
    intro error improper
    rw [error, Except.error.injEq, eq_comm, and_iff_right improper]
  cases p with
  | nan => exact refused rfl nofun
  | infinite negative => exact refused rfl nofun
  | finite negative steps =>
    by_cases proper : steps ≤ Binary64.unit ∧ (negative = false ∨ steps = 0)
    · have probability := Binary64.isProbability_finite_iff.mpr proper
      rw [ofBinary64, dif_pos proper]
      exact iff_of_false nofun fun refusal => refusal.1 probability
    · have improper := mt Binary64.isProbability_finite_iff.mp proper
      exact refused (dif_neg proper) improper

theorem floor_words (steps : Nat) :
    ⌊(steps : ℚ) / Binary64.unit * 2 ^ 64⌋₊ = steps * 2 ^ 64 / Binary64.unit := by
  rw [div_mul_eq_mul_div, ← Nat.floor_div_eq_div (K := ℚ), Nat.cast_mul, Nat.cast_pow]
  rfl

/-- The chance of a probability is its part of all words, rounded down. -/
theorem words_of_ok {p : Binary64} {c : Chance} (accepted : ofBinary64 p = .ok c) :
    ∃ q, p.value? = some q ∧ 0 ≤ q ∧ q ≤ 1 ∧ c.words = ⌊q * 2 ^ 64⌋₊ := by
  cases p with
  | nan => cases accepted
  | infinite negative => cases accepted
  | finite negative steps =>
    by_cases proper : steps ≤ Binary64.unit ∧ (negative = false ∨ steps = 0)
    · have words : c.words = steps * 2 ^ 64 / Binary64.unit := by
        rw [ofBinary64, dif_pos proper, Except.ok.injEq] at accepted
        rw [← accepted]
      obtain ⟨q, value, least, most⟩ := Binary64.isProbability_finite_iff.mpr proper
      refine ⟨q, value, least, most, ?_⟩
      have unsigned : q = steps / Binary64.unit := by
        rw [← Option.some.inj value]
        rcases proper.2 with rfl | rfl
        · rfl
        · rw [Nat.cast_zero, zero_div, neg_zero, ite_self]
      rw [words, unsigned, floor_words]
    · rw [ofBinary64, dif_neg proper] at accepted
      cases accepted

/-- The chances of the recipes are those of the numbers nearest to 0.1, 0.2 and 0.3. -/
example :
    ofBinary64 (.ofRatio false 1 10) = .ok tenth ∧ ofBinary64 (.ofRatio false 2 10) = .ok fifth ∧
      ofBinary64 (.ofRatio false 3 10) = .ok threeTenths := by
  decide +kernel

/-! ## Which words make a chance happen -/

/-- A chance happens if the next word is below it.  If it is certain, every word is. -/
theorem happens_iff (c : Chance) (w : Words) :
    (c.happens w).1 = true ↔ (w.word w.drawn).toNat < c.words := by
  rw [happens]
  by_cases certain : c.words = 2 ^ 64
  · rw [if_pos certain, certain]
    exact iff_of_true rfl (w.word w.drawn).toNat_lt
  · rw [if_neg certain]
    exact decide_eq_true_iff

end FeedTraffic.Random.Chance
