import FeedTraffic.Proofs.Cursors
import FeedTraffic.Proofs.MachineDraws
import FeedTraffic.Proofs.Probabilities

/-!
# The windows of cursors

A cursor lies in a window behind the clock, or at zero where the clock does not reach that far back.
Nothing else about a request changes when one is drawn.  Done in words of 64 bits, with every sum
and difference checked, paging gives the same requests for every clock.
-/

namespace FeedTraffic.Feed.Request

open FeedTraffic.Number FeedTraffic.Random

/-! ## Paging in machine words -/

/-- A request with a cursor; a clock that shows less than is to go back gives zero. -/
def checkedCursor (r : Request) (name : String) (lo hi now : UInt64) : Checked Request := do
  let back ← Checked.between lo hi
  pure (r.param name (toString (if back ≤ now then now - back else 0).toNat))

def checkedPaginateBefore (r : Request) (now : UInt64) (chance : Chance) : Checked Request := do
  if ← Checked.happens chance then r.checkedCursor "before" 3600 86400 now else pure r

def checkedPaginate (r : Request) (now : UInt64) : Checked Request := do
  if ← Checked.happens .threeTenths then r.checkedCursor "before" 3600 86400 now
  else if ← Checked.happens .tenth then r.checkedCursor "after" 86400 172800 now
  else pure r

section Agreement

variable (r : Request) (now : UInt64)

theorem toNat_cutOff (back : UInt64) :
    (if back ≤ now then now - back else 0).toNat = now.toNat - back.toNat := by
  by_cases reaches : back ≤ now
  · rw [if_pos reaches]
    exact UInt64.toNat_sub_of_le now back reaches
  · have past : now.toNat ≤ back.toNat := Nat.le_of_not_le reaches
    rw [if_neg reaches, Nat.sub_eq_zero_of_le past]
    rfl

theorem checkedCursor_agrees (name : String) {lo hi : UInt64} (ordered : lo ≤ hi)
    (part : hi.toNat - lo.toNat + 1 < 2 ^ 64) :
    Checked.Agrees Eq (r.checkedCursor name lo hi now) (do
      let back ← betweenWide lo.toNat hi.toNat
      pure (r.param name (toString (now.toNat - back)))) := by
  refine Checked.Agrees.bind (Checked.between_agrees ordered part) ?_
  rintro back _ rfl
  rw [toNat_cutOff]
  exact Checked.Agrees.pure rfl

theorem before_agrees :
    Checked.Agrees Eq (r.checkedCursor "before" 3600 86400 now) (r.before now.toNat) :=
  checkedCursor_agrees r now "before" (by decide) (by decide)

theorem after_agrees :
    Checked.Agrees Eq (r.checkedCursor "after" 86400 172800 now) (r.after now.toNat) :=
  checkedCursor_agrees r now "after" (by decide) (by decide)

theorem paginateBefore_agrees (chance : Chance) :
    Checked.Agrees Eq (r.checkedPaginateBefore now chance)
      (r.paginateBefore now.toNat chance) := by
  refine Checked.Agrees.bind (Checked.happens_agrees chance) ?_
  rintro happened _ rfl
  exact Checked.Agrees.ite Iff.rfl (fun _ => before_agrees r now) fun _ => Checked.Agrees.pure rfl

theorem paginate_agrees :
    Checked.Agrees Eq (r.checkedPaginate now) (r.paginate now.toNat) := by
  refine Checked.Agrees.bind (Checked.happens_agrees .threeTenths) ?_
  rintro first _ rfl
  refine Checked.Agrees.ite Iff.rfl (fun _ => before_agrees r now) fun _ => ?_
  refine Checked.Agrees.bind (Checked.happens_agrees .tenth) ?_
  rintro second _ rfl
  exact Checked.Agrees.ite Iff.rfl (fun _ => after_agrees r now) fun _ => Checked.Agrees.pure rfl

end Agreement

/-! ## What is added -/

/-- A parameter for a time between two numbers of seconds back, cut off at zero. -/
def IsCursor (name : String) (lo hi now : Nat) (param : String × String) : Prop :=
  ∃ back time : Nat, lo ≤ back ∧ back ≤ hi ∧ (time : Int) = max 0 ((now : Int) - back) ∧
    time ≤ now ∧ param = (name, toString time)

def Extends (r r' : Request) (added : List (String × String)) : Prop :=
  r' = { r with params := r.params ++ added }

variable {r r' : Request} {now : Nat}

theorem extends_nothing (r : Request) : Extends r r [] := by
  rw [Extends, List.append_nil]

theorem HasCursor.extends {name : String} {lo hi : Nat} (drawn : HasCursor name lo hi now r r') :
    ∃ cursor, Extends r r' [cursor] ∧ IsCursor name lo hi now cursor := by
  obtain ⟨back, least, most, rfl⟩ := drawn
  refine ⟨_, rfl, back, now - back, least, most, ?_, Nat.sub_le _ _, rfl⟩
  omega

theorem paginateBefore_apply (r : Request) (now : Nat) (c : Chance) (w : Words) :
    r.paginateBefore now c w =
      if (c.happens w).1 then r.before now (c.happens w).2 else (r, (c.happens w).2) :=
  ite_apply _ _ _ (c.happens w).2

theorem paginate_apply (r : Request) (now : Nat) (w : Words) :
    let first := Chance.threeTenths.happens w
    let second := Chance.tenth.happens first.2
    r.paginate now w =
      if first.1 then r.before now first.2
      else if second.1 then r.after now second.2 else (r, second.2) := by
  intro first second
  refine (ite_apply _ _ _ first.2).trans (ite_congr rfl (fun _ => rfl) fun _ => ?_)
  exact ite_apply _ _ _ second.2

/-- A `before` cursor is added exactly if the chance happens. -/
theorem paginateBefore_extends (r : Request) (now : Nat) (c : Chance) (w : Words) :
    ∃ added, Extends r (r.paginateBefore now c w).1 added ∧
      (added = [] ∨ ∃ cursor, added = [cursor] ∧ IsCursor "before" 3600 86400 now cursor) ∧
      (added ≠ [] ↔ (c.happens w).1 = true) := by
  rw [paginateBefore_apply]
  by_cases happens : (c.happens w).1 = true
  · obtain ⟨cursor, extended, window⟩ := (before_yields r now (c.happens w).2 True.intro).extends
    rw [if_pos happens]
    exact ⟨[cursor], extended, Or.inr ⟨cursor, rfl, window⟩,
      iff_of_true (List.cons_ne_nil _ _) happens⟩
  · rw [if_neg happens]
    exact ⟨[], extends_nothing r, Or.inl rfl, iff_of_false (fun more => more rfl) happens⟩

theorem paginate_extends (r : Request) (now : Nat) (w : Words) :
    ∃ added, Extends r (r.paginate now w).1 added ∧
      (added = [] ∨
        (∃ cursor, added = [cursor] ∧ IsCursor "before" 3600 86400 now cursor) ∨
        ∃ cursor, added = [cursor] ∧ IsCursor "after" 86400 172800 now cursor ∧
          (Chance.threeTenths.happens w).1 = false) := by
  let first := Chance.threeTenths.happens w
  let second := Chance.tenth.happens first.2
  rw [paginate_apply]
  by_cases happens : first.1 = true
  · obtain ⟨cursor, extended, window⟩ := (before_yields r now first.2 True.intro).extends
    rw [if_pos happens]
    exact ⟨[cursor], extended, Or.inr (Or.inl ⟨cursor, rfl, window⟩)⟩
  · rw [if_neg happens]
    by_cases later : second.1 = true
    · obtain ⟨cursor, extended, window⟩ := (after_yields r now second.2 True.intro).extends
      have refused : first.1 = false := eq_false_of_ne_true happens
      rw [if_pos later]
      exact ⟨[cursor], extended, Or.inr (Or.inr ⟨cursor, rfl, window, refused⟩)⟩
    · rw [if_neg later]
      exact ⟨[], extends_nothing r, Or.inl rfl⟩

/-! ## Probabilities -/

theorem paginateBeforeBy_of_improper (r : Request) (now : Nat) {p : Binary64}
    (improper : ¬p.IsProbability) : r.paginateBeforeBy now p = .error ⟨p⟩ := by
  rw [paginateBeforeBy, Chance.ofBinary64_eq_error_iff.mpr ⟨improper, rfl⟩]
  rfl

/-- A probability `q` is accepted, and adds a cursor if the next word is among the first `q · 2^64`
words. -/
theorem paginateBeforeBy_of_value (r : Request) (now : Nat) (w : Words) {p : Binary64} {q : ℚ}
    (value : p.value? = some q) (least : 0 ≤ q) (most : q ≤ 1) :
    ∃ draw, r.paginateBeforeBy now p = .ok draw ∧ ∃ added, Extends r (draw w).1 added ∧
      (added = [] ∨ ∃ cursor, added = [cursor] ∧ IsCursor "before" 3600 86400 now cursor) ∧
      (added ≠ [] ↔ (w.word w.drawn).toNat < ⌊q * 2 ^ 64⌋₊) := by
  cases converted : Chance.ofBinary64 p with
  | error fault =>
    have improper := (Chance.ofBinary64_eq_error_iff.mp converted).1
    exact absurd ⟨q, value, least, most⟩ improper
  | ok c =>
    have accepted : r.paginateBeforeBy now p = .ok (r.paginateBefore now c) := by
      rw [paginateBeforeBy, converted]
      rfl
    obtain ⟨q', value', -, -, words⟩ := Chance.words_of_ok converted
    obtain rfl : q = q' := Option.some.inj (value.symm.trans value')
    obtain ⟨added, extended, window, happens⟩ := paginateBefore_extends r now c w
    refine ⟨_, accepted, added, extended, window, ?_⟩
    rw [happens, Chance.happens_iff, words]

/-- Whatever the request, the clock and the words are, paging adds at most one cursor in its window
and changes nothing else, and an `after` cursor comes only where `before` was refused.  With a
probability that is given as a number, there is at most a `before` cursor, none for zero and always
one for one, and exactly the numbers that are no probabilities are refused.  In words of 64 bits all
of this comes out the same, and no sum or difference runs over or under. -/
theorem cursors_in_window (r : Request) (now : UInt64) (words : Words) :
    (∃ added, Extends r (r.paginate now.toNat words).1 added ∧
      (added = [] ∨
        (∃ cursor, added = [cursor] ∧ IsCursor "before" 3600 86400 now.toNat cursor) ∨
        ∃ cursor, added = [cursor] ∧ IsCursor "after" 86400 172800 now.toNat cursor ∧
          (Chance.threeTenths.happens words).1 = false)) ∧
    (∀ p : Binary64,
      (¬p.IsProbability → r.paginateBeforeBy now.toNat p = .error ⟨p⟩) ∧
      ∀ q, p.value? = some q → 0 ≤ q → q ≤ 1 →
        ∃ draw, r.paginateBeforeBy now.toNat p = .ok draw ∧
          ∃ added, Extends r (draw words).1 added ∧
            (added = [] ∨
              ∃ cursor, added = [cursor] ∧ IsCursor "before" 3600 86400 now.toNat cursor) ∧
            (q = 0 → added = []) ∧ (q = 1 → added ≠ [])) ∧
    Checked.Agrees Eq (r.checkedPaginate now) (r.paginate now.toNat) ∧
    ∀ chance, Checked.Agrees Eq (r.checkedPaginateBefore now chance)
      (r.paginateBefore now.toNat chance) := by
  refine ⟨paginate_extends r now.toNat words, ?_, paginate_agrees r now,
    paginateBefore_agrees r now⟩
  intro p
  refine ⟨paginateBeforeBy_of_improper r now.toNat, ?_⟩
  intro q value least most
  obtain ⟨draw, accepted, added, extended, window, happens⟩ :=
    paginateBeforeBy_of_value r now.toNat words value least most
  refine ⟨draw, accepted, added, extended, window, ?_, ?_⟩
  · rintro rfl
    by_contra more
    have below := happens.mp more
    rw [zero_mul, Nat.floor_zero] at below
    exact Nat.not_lt_zero _ below
  · rintro rfl
    refine happens.mpr ?_
    have all : ⌊(1 : ℚ) * 2 ^ 64⌋₊ = 2 ^ 64 := by
      rw [one_mul]
      exact Nat.floor_natCast (R := ℚ) (2 ^ 64)
    rw [all]
    exact (words.word words.drawn).toNat_lt

/-- Early in its first hour the clock leaves no room, and a certain cursor is at zero. -/
theorem cursors_in_window_early :
    let r : Request := { endpoint := .posts }
    let one : Binary64 := .finite false Binary64.unit
    one.value? = some 1 ∧ (0 : ℚ) ≤ 1 ∧ (1 : ℚ) ≤ 1 ∧
      ∃ draw, r.paginateBeforeBy 100 one = .ok draw ∧
        (draw (.cyclic [])).1.params = [("before", "0")] := by
  intro r one
  have value : one.value? = some 1 := congrArg some (div_self Binary64.unit_pos.ne')
  refine ⟨value, zero_le_one, le_rfl, ?_⟩
  obtain ⟨draw, accepted, added, extended, window, -, certain⟩ :=
    ((cursors_in_window r 100 (.cyclic [])).2.1 one).2 1 value zero_le_one le_rfl
  refine ⟨draw, accepted, ?_⟩
  rcases window with none | ⟨_, rfl, back, time, least, -, cutOff, -, rfl⟩
  · exact absurd none (certain rfl)
  · have zero : time = 0 := by
      change (time : Int) = max 0 ((100 : Nat) - (back : Int)) at cutOff
      omega
    rw [extended, zero]
    rfl

end FeedTraffic.Feed.Request
