import FeedTraffic.Proofs.Draws
import FeedTraffic.User.Session
import Mathlib.Algebra.Order.BigOperators.Group.Finset
import Mathlib.Algebra.Order.Floor.Div
import Mathlib.Data.Nat.Count
import Mathlib.Order.Interval.Finset.Nat

/-!
# Even picks

A pick uses half a word, and half of another if the first leaves a doubt.  Whatever the second half
is, the first halves that name one position follow each other without a gap, and from position to
position their number differs by one at most.  So every entry of a list can be picked, and an entry
that is listed twice is picked twice as often.
-/

namespace FeedTraffic.Random

/-- The upper half of a word that is still to come. -/
def Words.half (w : Words) (ahead : Nat) : Nat := (w.word (w.drawn + ahead) >>> 32).toNat

/-- The position in a list of `n` entries that a stream names. -/
def position (n : Nat) (w : Words) : Nat := (below 32 nextHalf n w).1

/-! ## One division decides -/

theorem below_apply (bits n : Nat) (word : Draw Nat) (w : Words) :
    below bits word n w =
      if undecided bits n (scale bits n (word w).1).2 then
        ((scale bits n (word w).1).1 +
          carry bits n (scale bits n (word w).1).2 (word (word w).2).1, (word (word w).2).2)
      else ((scale bits n (word w).1).1, (word w).2) :=
  ite_apply _ _ _ (word w).2

/-- The carry of a second word is that of the sum, and where a remainder leaves no doubt the sum has
none. -/
theorem scale_carry {bits n x y : Nat} (pos : 0 < n) (fits : n ≤ 2 ^ bits)
    (narrow : y < 2 ^ bits) :
    (if undecided bits n (scale bits n x).2 then
      (scale bits n x).1 + carry bits n (scale bits n x).2 y else (scale bits n x).1) =
      (x * n + y * n / 2 ^ bits) / 2 ^ bits := by
  have size : 0 < 2 ^ bits := Nat.two_pow_pos bits
  have more : y * n / 2 ^ bits < n := scale_lt pos narrow
  have rest : x * n % 2 ^ bits < 2 ^ bits := Nat.mod_lt _ size
  have sum : (x * n + y * n / 2 ^ bits) / 2 ^ bits =
      x * n / 2 ^ bits + (x * n % 2 ^ bits + y * n / 2 ^ bits) / 2 ^ bits := by
    conv_lhs => rw [← Nat.div_add_mod (x * n) (2 ^ bits)]
    rw [Nat.add_assoc, Nat.mul_add_div size]
  rw [sum]
  by_cases carries : 2 ^ bits ≤ x * n % 2 ^ bits + y * n / 2 ^ bits
  · have large : 2 ^ bits - n < x * n % 2 ^ bits := by omega
    have doubt : undecided bits n (scale bits n x).2 = true := decide_eq_true large
    have carried : carry bits n (scale bits n x).2 y = 1 := if_pos carries
    have one : (x * n % 2 ^ bits + y * n / 2 ^ bits) / 2 ^ bits = 1 :=
      Nat.div_eq_of_lt_le (by omega) (by omega)
    rw [if_pos doubt, carried, one]
    rfl
  · have nothing : carry bits n (scale bits n x).2 y = 0 := if_neg carries
    rw [nothing, Nat.add_zero, ite_self, Nat.div_eq_of_lt (Nat.lt_of_not_le carries)]
    rfl

theorem half_lt (w : Words) (ahead : Nat) : w.half ahead < 2 ^ 32 :=
  nextHalf_lt { w with drawn := w.drawn + ahead } True.intro

theorem position_eq {n : Nat} (pos : 0 < n) (fits : n ≤ 2 ^ 32) (w : Words) :
    position n w = (w.half 0 * n + w.half 1 * n / 2 ^ 32) / 2 ^ 32 := by
  rw [← scale_carry pos fits (half_lt w 1), position, below_apply, apply_ite Prod.fst]
  rfl

theorem position_lt {n : Nat} (pos : 0 < n) (w : Words) : position n w < n :=
  below_lt pos nextHalf_lt w True.intro

/-! ## Where the positions begin -/

section Cuts

variable {size n m i x : Nat}

/-- The least number `x` for which `x · n + m` reaches `i` times a size. -/
def cut (size n m i : Nat) : Nat := (i * size - m) ⌈/⌉ n

theorem cut_le_iff (pos : 0 < n) (filled : 0 < size) :
    cut size n m i ≤ x ↔ i ≤ (x * n + m) / size := by
  rw [cut, ceilDiv_le_iff_le_mul pos, Nat.sub_le_iff_le_add, Nat.le_div_iff_mul_le filled,
    Nat.mul_comm n x]

/-- What names the position `i` lies between its cut and the next. -/
theorem filter_eq_Ico (pos : 0 < n) (filled : 0 < size) (inside : i < n) :
    (Finset.range size).filter (fun x => (x * n + m) / size = i) =
      Finset.Ico (cut size n m i) (cut size n m (i + 1)) := by
  have last : cut size n m (i + 1) ≤ size := by
    rw [cut_le_iff pos filled, Nat.mul_add_div filled]
    exact Nat.le_add_right_of_le inside
  ext x
  have lower : cut size n m i ≤ x ↔ i ≤ (x * n + m) / size := cut_le_iff pos filled
  have upper : cut size n m (i + 1) ≤ x ↔ i + 1 ≤ (x * n + m) / size := cut_le_iff pos filled
  rw [Finset.mem_filter, Finset.mem_range, Finset.mem_Ico]
  omega

theorem cut_succ_le (pos : 0 < n) (filled : 0 < size) :
    cut size n m (i + 1) ≤ cut size n m i + size ⌈/⌉ n := by
  rw [cut_le_iff pos filled, Nat.le_div_iff_mul_le filled]
  have reached : i ≤ (cut size n m i * n + m) / size := (cut_le_iff pos filled).mp le_rfl
  have step : size ≤ n * (size ⌈/⌉ n) := (ceilDiv_le_iff_le_mul pos).mp le_rfl
  rw [Nat.le_div_iff_mul_le filled] at reached
  rw [Nat.add_mul, Nat.add_mul, Nat.mul_comm (size ⌈/⌉ n) n]
  omega

theorem le_cut_succ (less : m < n) (filled : 0 < size) :
    cut size n m i + size / n ≤ cut size n m (i + 1) := by
  have pos : 0 < n := Nat.zero_lt_of_lt less
  have reached : i + 1 ≤ (cut size n m (i + 1) * n + m) / size :=
    (cut_le_iff pos filled).mp le_rfl
  rw [Nat.le_div_iff_mul_le filled, Nat.add_mul] at reached
  have step : size / n * n ≤ size := Nat.div_mul_le_self size n
  -- already the first position is this long
  have enough : size / n ≤ cut size n m (i + 1) := by
    by_contra few
    have under : (cut size n m (i + 1) + 1) * n ≤ size / n * n :=
      Nat.mul_le_mul_right n (Nat.lt_of_not_le few)
    rw [Nat.succ_mul] at under
    omega
  have back : cut size n m i ≤ cut size n m (i + 1) - size / n := by
    rw [cut_le_iff pos filled, Nat.le_div_iff_mul_le filled, Nat.sub_mul]
    omega
  omega

/-- The positions are equally long, up to one. -/
theorem card_filter_bounds (less : m < n) (filled : 0 < size) (inside : i < n) :
    size / n ≤ ((Finset.range size).filter fun x => (x * n + m) / size = i).card ∧
      ((Finset.range size).filter fun x => (x * n + m) / size = i).card ≤ size ⌈/⌉ n := by
  have pos : 0 < n := Nat.zero_lt_of_lt less
  have long : cut size n m i + size / n ≤ cut size n m (i + 1) := le_cut_succ less filled
  have short : cut size n m (i + 1) ≤ cut size n m i + size ⌈/⌉ n := cut_succ_le pos filled
  rw [filter_eq_Ico pos filled inside, Nat.card_Ico]
  omega

theorem ceilDiv_le_succ (pos : 0 < n) : size ⌈/⌉ n ≤ size / n + 1 := by
  rw [ceilDiv_le_iff_le_mul pos]
  exact (Nat.lt_mul_div_succ size pos).le

end Cuts

/-! ## Counting first halves -/

/-- Streams that agree in the half word after the next, while the next half word takes every value
once. -/
structure Sweep (second : Nat) (stream : Nat → Words) : Prop where
  first : ∀ x < 2 ^ 32, (stream x).half 0 = x
  second : ∀ x < 2 ^ 32, (stream x).half 1 = second

def countHalves (p : Nat → Prop) [DecidablePred p] : Nat := ((Finset.range (2 ^ 32)).filter p).card

def upperWord (half : Nat) : UInt64 := UInt64.ofNat (half * 2 ^ 32)

theorem upperWord_half {half : Nat} (narrow : half < 2 ^ 32) :
    (upperWord half >>> 32).toNat = half := by
  have fits : half * 2 ^ 32 < 2 ^ 64 := by omega
  have whole : (upperWord half).toNat = half * 2 ^ 32 := UInt64.toNat_ofNat_of_lt' fits
  rw [UInt64.toNat_shiftRight, whole, Nat.shiftRight_eq_div_pow]
  exact Nat.mul_div_cancel half (by decide)

theorem sweep_cyclic {second : Nat} (narrow : second < 2 ^ 32) :
    Sweep second fun x => .cyclic [upperWord x, upperWord second] where
  first _ below := upperWord_half below
  second _ _ := upperWord_half narrow

section Sweeps

variable {n second : Nat} {stream : Nat → Words}

theorem countHalves_position (sweep : Sweep second stream) (fits : n ≤ 2 ^ 32) {i : Nat}
    (inside : i < n) :
    2 ^ 32 / n ≤ countHalves (fun x => position n (stream x) = i) ∧
      countHalves (fun x => position n (stream x) = i) ≤ 2 ^ 32 ⌈/⌉ n := by
  have pos : 0 < n := Nat.zero_lt_of_lt inside
  have narrow : second < 2 ^ 32 := by
    rw [← sweep.second 0 (by decide)]
    exact half_lt _ 1
  have divided : ∀ x ∈ Finset.range (2 ^ 32),
      (position n (stream x) = i ↔ (x * n + second * n / 2 ^ 32) / 2 ^ 32 = i) := by
    intro x member
    have below := Finset.mem_range.mp member
    rw [position_eq pos fits, sweep.first x below, sweep.second x below]
  rw [countHalves, Finset.filter_congr divided]
  exact card_filter_bounds (scale_lt pos narrow) (by decide) inside

/-- The positions of a value are as many as the times it is listed. -/
theorem card_positions {α : Type} [DecidableEq α] (xs : List α) (v : α) :
    ((Finset.range xs.length).filter fun i => xs[i]? = some v).card = xs.count v := by
  rw [← Nat.count_eq_card_filter_range]
  induction xs with
  | nil => rfl
  | cons x xs ih =>
    rw [List.length_cons, Nat.count_succ', List.count_cons]
    simp [ih]

/-- A value is named as often as all its positions together. -/
theorem countHalves_value (xs : List String) (v : String) :
    countHalves (fun x => xs[position xs.length (stream x)]? = some v) =
      ∑ i ∈ (Finset.range xs.length).filter (fun i => xs[i]? = some v),
        countHalves fun x => position xs.length (stream x) = i := by
  let named := (Finset.range (2 ^ 32)).filter fun x => xs[position xs.length (stream x)]? = some v
  let positions := (Finset.range xs.length).filter fun i => xs[i]? = some v
  have listed : ∀ x ∈ named, position xs.length (stream x) ∈ positions := by
    intro x member
    have found := (Finset.mem_filter.mp member).2
    obtain ⟨inside, -⟩ := List.getElem?_eq_some_iff.mp found
    exact Finset.mem_filter.mpr ⟨Finset.mem_range.mpr inside, found⟩
  refine (Finset.card_eq_sum_card_fiberwise listed).trans (Finset.sum_congr rfl fun i member => ?_)
  have value := (Finset.mem_filter.mp member).2
  refine congrArg Finset.card ?_
  rw [Finset.filter_filter]
  refine Finset.filter_congr fun x _ => ?_
  constructor
  · exact And.right
  · intro here
    exact ⟨here ▸ value, here⟩

theorem countHalves_value_bounds (sweep : Sweep second stream) {xs : List String}
    (fits : xs.length ≤ 2 ^ 32) (v : String) :
    xs.count v * (2 ^ 32 / xs.length) ≤
        countHalves (fun x => xs[position xs.length (stream x)]? = some v) ∧
      countHalves (fun x => xs[position xs.length (stream x)]? = some v) ≤
        xs.count v * (2 ^ 32 ⌈/⌉ xs.length) := by
  have bounds (i : Nat) (member : i ∈ (Finset.range xs.length).filter fun i => xs[i]? = some v) :=
    countHalves_position sweep fits (Finset.mem_range.mp (Finset.mem_filter.mp member).1)
  rw [countHalves_value, ← card_positions, ← smul_eq_mul, ← smul_eq_mul]
  exact ⟨Finset.card_nsmul_le_sum _ _ _ fun i member => (bounds i member).1,
    Finset.sum_le_card_nsmul _ _ _ fun i member => (bounds i member).2⟩

end Sweeps

/-! ## Picks -/

theorem below_one (w : Words) :
    below 32 nextHalf 1 w = (0, { w with drawn := w.drawn + 1 }) := by
  have narrow : (nextHalf w).1 * 1 < 2 ^ 32 := by
    rw [Nat.mul_one]
    exact half_lt w 0
  have settled : ¬undecided 32 1 (scale 32 1 (nextHalf w).1).2 = true := by
    intro doubt
    have large : 2 ^ 32 - 1 < (nextHalf w).1 * 1 % 2 ^ 32 := of_decide_eq_true doubt
    omega
  rw [below_apply, if_neg settled]
  exact congrArg (·, _) (Nat.div_eq_of_lt narrow)

theorem pick?_apply {α : Type} {xs : List α} (filled : xs ≠ []) (w : Words) :
    pick? xs w = (xs[position xs.length w]?, (below 32 nextHalf xs.length w).2) := by
  have entries : ¬xs.isEmpty = true := by
    rwa [List.isEmpty_iff]
  rw [pick?, if_neg entries]
  rfl

theorem pick?_entry {α : Type} {xs : List α} (filled : xs ≠ []) (otherwise : α) (w : Words) :
    xs[position xs.length w]? = some ((pick? xs w).1.getD otherwise) := by
  have inside := position_lt (List.length_pos_iff.mpr filled) w
  rw [pick?_apply filled, List.getElem?_eq_getElem inside]
  rfl

/-- How a draw picks from a list, with another value where there is nothing to pick. -/
structure PicksEvenly (xs : List String) (otherwise : String) (d : Draw String) : Prop where
  /-- Without entries no word is used. -/
  empty : xs = [] → ∀ w, d w = (otherwise, w)
  /-- A single entry still costs a word. -/
  single : ∀ x, xs = [x] → ∀ w, d w = (x, { w with drawn := w.drawn + 1 })
  /-- What is picked stands at the position that the stream names. -/
  entry : xs ≠ [] → ∀ w,
    position xs.length w < xs.length ∧ xs[position xs.length w]? = some (d w).1
  /-- Whatever the second half is, every position is named by as many first halves as any other, up
  to one. -/
  even : xs.length < 2 ^ 32 → ∀ second stream, Sweep second stream → ∀ i < xs.length,
    let halves := countHalves fun x => position xs.length (stream x) = i
    0 < halves ∧ (halves = 2 ^ 32 / xs.length ∨ halves = 2 ^ 32 ⌈/⌉ xs.length)
  /-- A value has the first halves of all places at which it is listed. -/
  shares : xs ≠ [] → xs.length < 2 ^ 32 → ∀ second stream, Sweep second stream → ∀ v,
    let halves := countHalves fun x => (d (stream x)).1 = v
    xs.count v * (2 ^ 32 / xs.length) ≤ halves ∧ halves ≤ xs.count v * (2 ^ 32 ⌈/⌉ xs.length)

theorem pick?_even (xs : List String) (otherwise : String) :
    PicksEvenly xs otherwise (pick? xs >>= fun picked => pure (picked.getD otherwise)) where
  empty := by
    rintro rfl w
    rfl
  single := by
    rintro x rfl w
    have value := pick?_entry (List.cons_ne_nil x []) otherwise w
    have left := congrArg Prod.snd (pick?_apply (List.cons_ne_nil x []) w)
    rw [List.length_singleton, below_one] at left
    rw [List.length_singleton, position, below_one] at value
    exact Prod.ext (Option.some.inj value).symm left
  entry := by
    intro filled w
    exact ⟨position_lt (List.length_pos_iff.mpr filled) w, pick?_entry filled otherwise w⟩
  even := by
    intro short second stream sweep i inside halves
    have pos : 0 < xs.length := Nat.zero_lt_of_lt inside
    obtain ⟨least, most⟩ := countHalves_position sweep short.le inside
    have some : 0 < 2 ^ 32 / xs.length := Nat.div_pos short.le pos
    have near : 2 ^ 32 ⌈/⌉ xs.length ≤ 2 ^ 32 / xs.length + 1 := ceilDiv_le_succ pos
    omega
  shares := by
    intro filled short second stream sweep v halves
    have same : halves = countHalves fun x => xs[position xs.length (stream x)]? = some v := by
      refine congrArg Finset.card (Finset.filter_congr fun x _ => ?_)
      rw [pick?_entry filled otherwise, Option.some.injEq]
      rfl
    rw [same]
    exact countHalves_value_bounds sweep short.le v

end FeedTraffic.Random

namespace FeedTraffic.User

open FeedTraffic.Feed FeedTraffic.Random

/-- Keys, posts of the samples and posts that a session remembers are picked evenly. -/
theorem identifiers_picked_evenly (samples : Samples) (session : Session) (fallback : String) :
    PicksEvenly samples.pubkeys "" samples.randomPubkey ∧
      PicksEvenly samples.postIds "" samples.randomPostId ∧
      PicksEvenly session.posts fallback (session.pickPost fallback) :=
  ⟨pick?_even _ _, pick?_even _ _, pick?_even _ _⟩

/-- Of the eight built-in keys one is listed twice: a quarter of all first halves picks it. -/
theorem identifiers_picked_evenly_twice :
    let key := "028e6cb879cadeea0acef3fa34cd456ac5b12d533b6e42e8965804bc5506f0863e"
    let stream (x : Nat) : Words := .cyclic [upperWord x, upperWord (2 ^ 32 - 1)]
    Samples.default.pubkeys.length = 8 ∧ Samples.default.pubkeys.count key = 2 ∧
      countHalves (fun x => (Samples.default.randomPubkey (stream x)).1 = key) = 2 ^ 30 := by
  intro key stream
  have twice : Samples.default.pubkeys.count key = 2 := by decide +kernel
  have eight : Samples.default.pubkeys.length = 8 := rfl
  have sweep : Sweep (2 ^ 32 - 1) stream := sweep_cyclic (by decide)
  have picks := (identifiers_picked_evenly Samples.default ⟨"", []⟩ "").1
  obtain ⟨least, most⟩ := picks.shares (by decide) (by decide) _ stream sweep key
  rw [twice, eight] at least most
  refine ⟨eight, twice, Nat.le_antisymm (most.trans_eq ?_) least⟩
  rfl

end FeedTraffic.User
