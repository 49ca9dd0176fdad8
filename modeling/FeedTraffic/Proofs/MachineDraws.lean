import FeedTraffic.Proofs.Draws
import FeedTraffic.Random.Chance

/-!
# Draws in machine words

The numbers of a draw are natural numbers, which are never too large.  Here the same draws are made
in words of 64 bits, and they fail where a sum or a difference is no word.  They never fail, use the
same words and draw the same numbers.
-/

namespace FeedTraffic.Random

/-- Draws that can fail. -/
abbrev Checked := OptionT Draw

namespace Checked

def add (x y : UInt64) : Checked UInt64 :=
  if x.toNat + y.toNat < 2 ^ 64 then pure (x + y) else failure

def sub (x y : UInt64) : Checked UInt64 := if y ≤ x then pure (x - y) else failure

def product (x y : UInt64) : UInt64 × UInt64 :=
  let wide : BitVec 128 := x.toBitVec.setWidth 128 * y.toBitVec.setWidth 128
  (⟨(wide >>> 64).setWidth 64⟩, ⟨wide.setWidth 64⟩)

def below (n : UInt64) : Checked UInt64 := do
  let x ← next
  let (high, low) := product x n
  -- the negative of `n` is its distance from `2 ^ 64`
  if -n < low then
    let y ← next
    if 2 ^ 64 ≤ low.toNat + (product y n).1.toNat then add high 1 else pure high
  else
    pure high

def between (lo hi : UInt64) : Checked UInt64 := do
  let span ← sub hi lo
  let n ← add span 1
  let d ← below n
  add lo d

def happens (c : Chance) : Checked Bool :=
  if c.words = 2 ^ 64 then pure true
  else do
    let x ← next
    pure (decide (x < UInt64.ofNat c.words))

/-! ## Agreement with draws of numbers -/

variable {α β γ δ : Type} {rel : α → β → Prop} {rel' : γ → δ → Prop}

/-- A checked draw does not fail, whatever the words are.  It uses the words that a draw of numbers
uses, and their results belong together. -/
def Agrees (rel : α → β → Prop) (c : Checked α) (d : Draw β) : Prop :=
  ∀ w, ∃ a, c.run w = (some a, (d w).2) ∧ rel a (d w).1

/-- A word stands for a number. -/
def Names (x : UInt64) (n : Nat) : Prop := x.toNat = n

namespace Agrees

theorem pure {a : α} {b : β} (related : rel a b) : Agrees rel (Pure.pure a) (Pure.pure b) :=
  fun _ => ⟨a, rfl, related⟩

theorem bind {c : Checked α} {d : Draw β} {f : α → Checked γ} {g : β → Draw δ}
    (first : Agrees rel c d) (later : ∀ a b, rel a b → Agrees rel' (f a) (g b)) :
    Agrees rel' (c >>= f) (d >>= g) := by
  intro w
  obtain ⟨a, run, related⟩ := first w
  obtain ⟨e, run', related'⟩ := later a (d w).1 related (d w).2
  have opened := congrFun (OptionT.run_bind (x := c) f) w
  refine ⟨e, opened.trans ?_, related'⟩
  simp only [Option.elimM, Bind.bind, StateT.bind, run]
  exact run'

/-- What a draw of numbers yields may be used as well. -/
theorem yielding {c : Checked α} {d : Draw β} {p : β → Prop} (agrees : Agrees rel c d)
    (yields : Yields d p) : Agrees (fun a b => rel a b ∧ p b) c d := by
  intro w
  obtain ⟨a, run, related⟩ := agrees w
  exact ⟨a, run, related, yields w True.intro⟩

theorem ite {p q : Prop} [Decidable p] [Decidable q] {c c' : Checked α} {d d' : Draw β}
    (same : p ↔ q) (yes : q → Agrees rel c d) (no : ¬q → Agrees rel c' d') :
    Agrees rel (if p then c else c') (if q then d else d') := by
  by_cases h : q
  · rw [if_pos h, if_pos (same.mpr h)]
    exact yes h
  · rw [if_neg h, if_neg (mt same.mp h)]
    exact no h

end Agrees

theorem next_agrees : Agrees Names next nextNat := fun w => ⟨w.word w.drawn, rfl, rfl⟩

theorem toNat_add_of_lt {x y : UInt64} (fits : x.toNat + y.toNat < 2 ^ 64) :
    (x + y).toNat = x.toNat + y.toNat := (UInt64.toNat_add x y).trans (Nat.mod_eq_of_lt fits)

theorem add_eq {x y : UInt64} (fits : x.toNat + y.toNat < 2 ^ 64) : add x y = pure (x + y) :=
  if_pos fits

theorem scale_toNat (n x : UInt64) :
    scale 64 n.toNat x.toNat = ((product x n).1.toNat, (product x n).2.toNat) := by
  have left := x.toNat_lt
  have right := n.toNat_lt
  have exact : x.toNat * n.toNat < 2 ^ 64 * 2 ^ 64 := Nat.mul_lt_mul'' left right
  have wide : (x.toBitVec.setWidth 128 * n.toBitVec.setWidth 128).toNat = x.toNat * n.toNat := by
    simp only [BitVec.toNat_mul, BitVec.toNat_setWidth, UInt64.toNat_toBitVec]
    rw [Nat.mod_eq_of_lt (a := x.toNat) (by omega), Nat.mod_eq_of_lt (a := n.toNat) (by omega)]
    exact Nat.mod_eq_of_lt exact
  have upper : x.toNat * n.toNat / 2 ^ 64 < 2 ^ 64 := Nat.div_lt_of_lt_mul exact
  refine Prod.ext ?_ ?_ <;> symm
  · simp only [product, scale, UInt64.toNat_ofBitVec, BitVec.toNat_setWidth,
      BitVec.toNat_ushiftRight, wide, Nat.shiftRight_eq_div_pow]
    exact Nat.mod_eq_of_lt upper
  · simp only [product, scale, UInt64.toNat_ofBitVec, BitVec.toNat_setWidth, wide]

theorem toNat_neg_of_pos {n : UInt64} (pos : 0 < n.toNat) : (-n).toNat = 2 ^ 64 - n.toNat := by
  have narrow := n.toNat_lt
  rw [UInt64.toNat_neg, UInt64.size, Nat.mod_eq_of_lt (by omega)]

theorem below_agrees {n : UInt64} (pos : 0 < n.toNat) :
    Agrees Names (below n) (Random.below 64 nextNat n.toNat) := by
  refine Agrees.bind next_agrees ?_
  rintro x _ rfl
  have high : (scale 64 n.toNat x.toNat).1 = (product x n).1.toNat := by rw [scale_toNat]
  have low : (scale 64 n.toNat x.toNat).2 = (product x n).2.toNat := by rw [scale_toNat]
  have doubt : -n < (product x n).2 ↔ undecided 64 n.toNat (scale 64 n.toNat x.toNat).2 = true := by
    rw [UInt64.lt_iff_toNat_lt, toNat_neg_of_pos pos, undecided, decide_eq_true_iff, low]
  refine Agrees.ite doubt (fun unsure => ?_) fun _ => Agrees.pure high.symm
  refine Agrees.bind next_agrees ?_
  rintro y _ rfl
  have more : y.toNat * n.toNat / 2 ^ 64 = (product y n).1.toNat :=
    congrArg Prod.fst (scale_toNat n y)
  change Agrees Names
    (if 2 ^ 64 ≤ (product x n).2.toNat + (product y n).1.toNat then add (product x n).1 1
      else Pure.pure (product x n).1)
    (Pure.pure ((scale 64 n.toNat x.toNat).1 +
      carry 64 n.toNat (scale 64 n.toNat x.toNat).2 y.toNat))
  -- a carry does not lead out of the range, let alone out of a word
  have room := succ_scale_lt x.toNat_lt unsure
  rw [high] at room
  have fits : (product x n).1.toNat + (1 : UInt64).toNat < 2 ^ 64 :=
    Nat.lt_trans room n.toNat_lt
  rw [carry, low, more, high]
  by_cases carries : 2 ^ 64 ≤ (product x n).2.toNat + (product y n).1.toNat
  · rw [if_pos carries, if_pos carries, add_eq fits]
    exact Agrees.pure (toNat_add_of_lt fits)
  · rw [if_neg carries, if_neg carries]
    exact Agrees.pure rfl

theorem between_agrees {lo hi : UInt64} (ordered : lo ≤ hi)
    (part : hi.toNat - lo.toNat + 1 < 2 ^ 64) :
    Agrees Names (between lo hi) (betweenWide lo.toNat hi.toNat) := by
  have difference : (hi - lo).toNat = hi.toNat - lo.toNat := UInt64.toNat_sub_of_le hi lo ordered
  have fits : (hi - lo).toNat + (1 : UInt64).toNat < 2 ^ 64 := by
    rwa [difference]
  have range : (hi - lo + 1).toNat = hi.toNat - lo.toNat + 1 := by
    rw [toNat_add_of_lt fits, difference]
    rfl
  have checked : between lo hi = below (hi - lo + 1) >>= fun d => add lo d := by
    rw [between, sub, if_pos ordered, pure_bind, add_eq fits, pure_bind]
  have pos : 0 < (hi - lo + 1).toNat := by omega
  have drawn := (below_agrees pos).yielding (below_lt pos nextNat_lt)
  rw [checked, betweenWide, ← range]
  refine Agrees.bind drawn ?_
  rintro d _ ⟨rfl, inside⟩
  have top := hi.toNat_lt
  have sum : lo.toNat + d.toNat < 2 ^ 64 := by
    have bounds : lo.toNat ≤ hi.toNat := ordered
    omega
  rw [add_eq sum]
  exact Agrees.pure (toNat_add_of_lt sum)

theorem happens_agrees (c : Chance) : Agrees Eq (happens c) c.happens := by
  refine Agrees.ite Iff.rfl (fun _ => Agrees.pure rfl) fun uncertain => ?_
  intro w
  have fits : c.words < 2 ^ 64 := Nat.lt_of_le_of_ne c.words_le uncertain
  have threshold : (UInt64.ofNat c.words).toNat = c.words := UInt64.toNat_ofNat_of_lt' fits
  refine ⟨_, rfl, decide_eq_decide.mpr ?_⟩
  rw [UInt64.lt_iff_toNat_lt, threshold]

end Checked

end FeedTraffic.Random
