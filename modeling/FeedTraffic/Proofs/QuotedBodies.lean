import FeedTraffic.Feed.Verdict
import Mathlib.Data.List.Infix

/-!
# What a message quotes of a body

The message of a failure quotes the longest beginning of a body that has no more bytes than it may
have.  Characters are not taken apart for it, so a long body loses up to three bytes more than it
has to.  The same place is found from the other side, by a search that goes back byte by byte until
a character ends.
-/

namespace FeedTraffic.Text.Utf8

/-! ## Beginnings of lists of characters -/

theorem size_cons (c : Char) (cs : List Char) : size (c :: cs) = c.utf8Size + size cs := by
  simp only [size, List.map_cons, List.sum_cons]

theorem size_append (cs ds : List Char) : size (cs ++ ds) = size cs + size ds := by
  simp only [size, List.map_append, List.sum_append]

theorem utf8ByteSize_eq (s : String) : s.utf8ByteSize = size s.toList := by
  obtain ⟨cs, rfl⟩ := s.exists_eq_ofList
  rw [String.toList_ofList]
  induction cs with
  | nil => rfl
  | cons c cs ih =>
    rw [← List.singleton_append, String.ofList_append, String.utf8ByteSize_append, ih, size_append]
    simp [size]

theorem takeBytes_isPrefix (budget : Nat) (cs : List Char) : takeBytes budget cs <+: cs := by
  induction cs generalizing budget with
  | nil => exact List.nil_prefix
  | cons c cs ih =>
    rw [takeBytes]
    split
    · exact (List.cons_prefix_cons).mpr ⟨rfl, ih _⟩
    · exact List.nil_prefix

/-- No beginning within the budget goes further. -/
theorem isPrefix_takeBytes {budget : Nat} {cs ds : List Char} (beginning : ds <+: cs)
    (fits : size ds ≤ budget) : ds <+: takeBytes budget cs := by
  induction cs generalizing budget ds with
  | nil => exact beginning
  | cons c cs ih =>
    cases ds with
    | nil => exact List.nil_prefix
    | cons d ds =>
      obtain ⟨rfl, rest⟩ := List.cons_prefix_cons.mp beginning
      rw [size_cons] at fits
      rw [takeBytes, if_pos (by omega)]
      exact List.cons_prefix_cons.mpr ⟨rfl, ih rest (by omega)⟩

/-- What is left of the budget is too little for a character, and four bytes are enough for any. -/
theorem lt_size_takeBytes {budget : Nat} {cs : List Char} (long : budget < size cs) :
    budget < size (takeBytes budget cs) + 4 := by
  induction cs generalizing budget with
  | nil => exact absurd long (Nat.not_lt_zero _)
  | cons c cs ih =>
    rw [size_cons] at long
    rw [takeBytes]
    split
    · have rest : budget - c.utf8Size < size (takeBytes (budget - c.utf8Size) cs) + 4 :=
        ih (by omega)
      rw [size_cons]
      omega
    · have width := c.utf8Size_le_four
      omega

/-! ## Beginnings of texts -/

/-- Of all beginnings of a text that have at most `budget` bytes, the longest one. -/
structure IsLongestWithin (budget : Nat) (text kept : String) : Prop where
  beginning : ∃ rest, text = kept ++ rest
  fits : kept.utf8ByteSize ≤ budget
  longest : ∀ other rest, text = other ++ rest → other.utf8ByteSize ≤ budget →
    ∃ more, kept = other ++ more

theorem exists_append_iff (text kept : String) :
    (∃ rest, text = kept ++ rest) ↔ kept.toList <+: text.toList := by
  constructor
  · rintro ⟨rest, rfl⟩
    exact ⟨rest.toList, String.toList_append.symm⟩
  · rintro ⟨rest, joined⟩
    refine ⟨String.ofList rest, String.toList_injective ?_⟩
    rw [String.toList_append, String.toList_ofList, joined]

theorem isLongestWithin_takeBytes (budget : Nat) (text : String) :
    IsLongestWithin budget text (String.ofList (takeBytes budget text.toList)) where
  beginning := by
    rw [exists_append_iff, String.toList_ofList]
    exact takeBytes_isPrefix budget text.toList
  fits := by
    rw [utf8ByteSize_eq, String.toList_ofList]
    exact size_takeBytes_le budget text.toList
  longest := by
    intro other rest joined fits
    rw [exists_append_iff, String.toList_ofList]
    rw [utf8ByteSize_eq] at fits
    exact isPrefix_takeBytes ((exists_append_iff text other).mp ⟨rest, joined⟩) fits

/-! ## The search for a cut -/

/-- Goes back from a number of bytes to the nearest place between two characters.  There is none if
the search would have to go below zero. -/
def lastBoundary? (text : String) : Nat → Option Nat
  | 0 => if (⟨0⟩ : String.Pos.Raw).isValid text then some 0 else none
  | n + 1 => if (⟨n + 1⟩ : String.Pos.Raw).isValid text then some (n + 1) else lastBoundary? text n

/-- The places between characters are the sizes of the beginnings. -/
theorem isValid_iff (text : String) (n : Nat) :
    (⟨n⟩ : String.Pos.Raw).isValid text = true ↔
      ∃ front rest, text = front ++ rest ∧ front.utf8ByteSize = n := by
  rw [String.Pos.Raw.isValid_eq_true_iff, String.Pos.Raw.isValid_iff_exists_append]
  simp only [String.Pos.Raw.ext_iff, String.byteIdx_rawEndPos, eq_comm (a := n)]

/-- The search ends at the largest place that is not behind its start. -/
theorem lastBoundary?_eq_some {text : String} {n m : Nat} (ahead : m ≤ n)
    (boundary : (⟨m⟩ : String.Pos.Raw).isValid text = true)
    (last : ∀ k, m < k → k ≤ n → (⟨k⟩ : String.Pos.Raw).isValid text = false) :
    lastBoundary? text n = some m := by
  induction n with
  | zero =>
    obtain rfl : m = 0 := Nat.le_zero.mp ahead
    rw [lastBoundary?, if_pos boundary]
  | succ n ih =>
    rcases Nat.eq_or_lt_of_le ahead with rfl | before
    · rw [lastBoundary?, if_pos boundary]
    · rw [lastBoundary?, last (n + 1) before (Nat.le_refl _)]
      exact ih (by omega) fun k above below => last k above (by omega)

/-- From wherever it starts, the search finds the end of the longest beginning. -/
theorem IsLongestWithin.lastBoundary? {budget : Nat} {text kept : String}
    (h : IsLongestWithin budget text kept) :
    lastBoundary? text budget = some kept.utf8ByteSize := by
  refine lastBoundary?_eq_some h.fits ?_ ?_
  · obtain ⟨rest, joined⟩ := h.beginning
    exact (isValid_iff text _).mpr ⟨kept, rest, joined, rfl⟩
  · intro k above within
    rw [← Bool.not_eq_true, isValid_iff]
    rintro ⟨front, rest, joined, rfl⟩
    obtain ⟨more, rfl⟩ := h.longest front rest joined within
    rw [String.utf8ByteSize_append] at above
    omega

example : lastBoundary? "aä€b" 5 = some 3 := by decide +kernel

end FeedTraffic.Text.Utf8

namespace FeedTraffic.Feed.Verdict

open FeedTraffic.Text.Utf8

theorem accepts_iff (expect : Expectation) (status : Nat) :
    accepts expect status = true ↔
      (expect = .ok ∧ status = 200) ∨
        (expect = .clientError ∧ (status = 400 ∨ status = 404)) := by
  cases expect <;> simp [accepts]

theorem quote_isLongest (body : String) : IsLongestWithin 512 body (quote body) :=
  isLongestWithin_takeBytes quotedBytes body

theorem quote_eq_self {body : String} (short : body.utf8ByteSize ≤ 512) : quote body = body := by
  rw [utf8ByteSize_eq] at short
  rw [quote, quotedBytes, takeBytes_eq_self short, String.ofList_toList]

theorem le_size_quote {body : String} (long : 512 < body.utf8ByteSize) :
    509 ≤ (quote body).utf8ByteSize := by
  rw [utf8ByteSize_eq] at long
  have close := lt_size_takeBytes long
  rw [utf8ByteSize_eq, quote, String.toList_ofList, quotedBytes]
  omega

/-- An answer passes with status 200 if its request is meant to be answered, and with status 400 or
404 if it is malformed on purpose.  Any other answer fails with a message that tells the status and
quotes the body: all of it if it has at most 512 bytes, and else the longest beginning of at most
512 bytes, which has 509 at least.  A search back from byte 512 finds where that beginning ends; it
never goes below zero. -/
theorem classify_quotes_longest (status : Nat) (expect : Expectation) (body : String) :
    (classify status expect body = .pass ↔
      (expect = .ok ∧ status = 200) ∨
        (expect = .clientError ∧ (status = 400 ∨ status = 404))) ∧
    ∃ kept, IsLongestWithin 512 body kept ∧
      lastBoundary? body 512 = some kept.utf8ByteSize ∧
      (body.utf8ByteSize ≤ 512 → kept = body) ∧
      (512 < body.utf8ByteSize → 509 ≤ kept.utf8ByteSize) ∧
      (expect = .ok → status ≠ 200 →
        classify status expect body = .fail ("Got " ++ toString status ++ ": " ++ kept)) ∧
      (expect = .clientError → status = 200 →
        classify status expect body = .fail ("Expected error but got 200: " ++ kept)) ∧
      (expect = .clientError → status ∉ [200, 400, 404] →
        classify status expect body =
          .fail ("Unexpected status " ++ toString status ++ ": " ++ kept)) := by
  have longest := quote_isLongest body
  have refused (other : accepts expect status = false) :
      classify status expect body = .fail (preamble expect status ++ quote body) := by
    simp only [classify, other, Bool.false_eq_true, if_false]
  constructor
  · rw [← accepts_iff, classify]
    split <;> simp [*]
  · refine ⟨quote body, longest, longest.lastBoundary?, quote_eq_self, le_size_quote, ?_, ?_, ?_⟩
    · rintro rfl other
      exact refused (by simp [accepts, other])
    · rintro rfl rfl
      exact refused rfl
    · rintro rfl other
      simp only [List.mem_cons, List.not_mem_nil, or_false, not_or] at other
      rw [refused (by simp [accepts, other]), preamble, if_neg other.1]

end FeedTraffic.Feed.Verdict
