import FeedTraffic.Proofs.Stateful
import FeedTraffic.Random.Range

/-!
# What draws can yield

A property of what is drawn holds whatever the words are.  Such properties are followed through a
draw step by step, down to the single words.  The carry that a second word decides never takes a
number out of its range: where the range ends there is too little left for a carry.
-/

namespace FeedTraffic.Random

open FeedTraffic.Stateful

variable {α β : Type}

/-- Whatever the words, what is drawn has a property. -/
def Yields (d : Draw α) (p : α → Prop) : Prop := Ensures (fun _ => True) d fun a _ => p a

namespace Yields

theorem pure {a : α} {p : α → Prop} (h : p a) : Yields (Pure.pure a) p :=
  Ensures.pure fun _ _ => h

theorem bind {d : Draw α} {f : α → Draw β} {p : α → Prop} {q : β → Prop} (first : Yields d p)
    (later : ∀ a, p a → Yields (f a) q) : Yields (d >>= f) q :=
  Ensures.bind first fun a w drawn => later a drawn w True.intro

theorem mono {d : Draw α} {p q : α → Prop} (h : Yields d p) (weaker : ∀ a, p a → q a) :
    Yields d q := Ensures.mono h fun a _ => weaker a

theorem and {d : Draw α} {p q : α → Prop} (left : Yields d p) (right : Yields d q) :
    Yields d fun a => p a ∧ q a := fun w start => ⟨left w start, right w start⟩

theorem trivial (d : Draw α) : Yields d fun _ => True := fun _ _ => True.intro

theorem ite {c : Prop} [Decidable c] {d e : Draw α} {p : α → Prop} (yes : Yields d p)
    (no : Yields e p) : Yields (if c then d else e) p :=
  Ensures.ite (fun _ => yes) fun _ => no

end Yields

/-! ## Numbers -/

theorem nextHalf_lt : Yields nextHalf (· < 2 ^ 32) := by
  refine Yields.bind (Yields.trivial next) fun x _ => Yields.pure ?_
  have wide : x.toNat < 2 ^ 64 := x.toNat_lt
  rw [UInt64.toNat_shiftRight, Nat.shiftRight_eq_div_pow]
  change x.toNat / 2 ^ 32 < 2 ^ 32
  omega

theorem nextNat_lt : Yields nextNat (· < 2 ^ 64) :=
  Yields.bind (Yields.trivial next) fun x _ => Yields.pure x.toNat_lt

theorem scale_lt {bits n x : Nat} (pos : 0 < n) (narrow : x < 2 ^ bits) :
    (scale bits n x).1 < n := by
  refine Nat.div_lt_of_lt_mul ?_
  exact Nat.mul_lt_mul_of_pos_right narrow pos

/-- The last number of the range leaves too little for a carry. -/
theorem succ_scale_lt {bits n x : Nat} (narrow : x < 2 ^ bits)
    (doubt : undecided bits n (scale bits n x).2 = true) : (scale bits n x).1 + 1 < n := by
  have large : 2 ^ bits - n < x * n % 2 ^ bits := of_decide_eq_true doubt
  have parts : 2 ^ bits * (x * n / 2 ^ bits) + x * n % 2 ^ bits = x * n := Nat.div_add_mod _ _
  have top : x * n + n ≤ 2 ^ bits * n := by
    rw [← Nat.succ_mul]
    exact Nat.mul_le_mul_right n narrow
  change x * n / 2 ^ bits + 1 < n
  rcases Nat.lt_or_ge (x * n / 2 ^ bits + 1) n with inside | outside
  · exact inside
  · have reaches : 2 ^ bits * n ≤ 2 ^ bits * (x * n / 2 ^ bits + 1) :=
      Nat.mul_le_mul_left _ outside
    rw [Nat.mul_succ] at reaches
    omega

theorem below_lt {bits n : Nat} {word : Draw Nat} (pos : 0 < n)
    (narrow : Yields word (· < 2 ^ bits)) : Yields (below bits word n) (· < n) := by
  refine Yields.bind narrow fun x hx => ?_
  change Yields (if undecided bits n (scale bits n x).2 = true then _ else _) _
  by_cases doubt : undecided bits n (scale bits n x).2 = true
  · rw [if_pos doubt]
    refine Yields.bind narrow fun y _ => Yields.pure ?_
    have room := succ_scale_lt hx doubt
    have small : carry bits n (scale bits n x).2 y ≤ 1 := by
      rw [carry]
      split <;> omega
    change (scale bits n x).1 + carry bits n (scale bits n x).2 y < n
    omega
  · rw [if_neg doubt]
    exact Yields.pure (scale_lt pos hx)

theorem between_bounds {lo hi : Nat} (ordered : lo ≤ hi) :
    Yields (between lo hi) fun n => lo ≤ n ∧ n ≤ hi := by
  refine Yields.bind (below_lt (Nat.succ_pos _) nextHalf_lt) fun d hd => Yields.pure ?_
  omega

theorem betweenWide_bounds {lo hi : Nat} (ordered : lo ≤ hi) :
    Yields (betweenWide lo hi) fun n => lo ≤ n ∧ n ≤ hi := by
  refine Yields.bind (below_lt (Nat.succ_pos _) nextNat_lt) fun d hd => Yields.pure ?_
  omega

/-! ## Picks -/

/-- What is picked from a list with entries is one of them. -/
theorem pick?_mem {xs : List α} (filled : xs ≠ []) :
    Yields (pick? xs) fun picked => ∃ x ∈ xs, picked = some x := by
  have entries : ¬xs.isEmpty = true := by
    rwa [List.isEmpty_iff]
  rw [pick?, if_neg entries]
  have pos : 0 < xs.length := List.length_pos_iff.mpr filled
  refine Yields.bind (below_lt pos nextHalf_lt) fun i hi => Yields.pure ?_
  exact ⟨xs[i], List.getElem_mem hi, List.getElem?_eq_getElem hi⟩

/-- What is picked, or else a default, has a property of the default and all entries. -/
theorem pick?_getD {p : α → Prop} {xs : List α} {d : α} (entries : ∀ x ∈ xs, p x)
    (otherwise : p d) : Yields (pick? xs) fun picked => p (picked.getD d) := by
  by_cases filled : xs = []
  · subst filled
    exact Yields.pure otherwise
  · refine (pick?_mem filled).mono ?_
    rintro picked ⟨x, member, rfl⟩
    exact entries x member

end FeedTraffic.Random
