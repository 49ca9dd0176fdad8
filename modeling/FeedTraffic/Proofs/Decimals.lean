import FeedTraffic.Number.Whole
import Mathlib.Data.List.Induction

/-!
# Texts of numbers

The texts of a positive number are its decimals with any zeros in front of them, and a plus sign in
front of those or none.  No other text is read as that number.
-/

namespace FeedTraffic.Number.Whole

theorem exists_digitChar {d : Char} (digit : d.isDigit = true) :
    ∃ n < 10, d = Nat.digitChar n ∧ d.toNat - '0'.toNat = n := by
  have bounds : 48 ≤ d.toNat ∧ d.toNat ≤ 57 := Char.isDigit_iff_toNat.mp digit
  have small : d.toNat - 48 < 10 := by omega
  refine ⟨d.toNat - 48, small, ?_, rfl⟩
  rw [← Char.toNat_inj, Nat.toNat_digitChar_of_lt_ten small]
  omega

/-- Digits are zeros and then the decimals of their number, if that is not zero. -/
theorem exists_zeros {ds : List Char} (digits : ∀ d ∈ ds, d.isDigit = true) :
    ∃ zeros, ds = List.replicate zeros '0' ++
      if Nat.ofDigitChars 10 ds 0 = 0 then [] else Nat.toDigits 10 (Nat.ofDigitChars 10 ds 0) := by
  induction ds using List.reverseRecOn with
  | nil => exact ⟨0, rfl⟩
  | append_singleton ds d ih =>
    obtain ⟨zeros, parts⟩ := ih fun c member => digits c (List.mem_append_left _ member)
    obtain ⟨n, small, rfl, back⟩ := exists_digitChar (digits d (by simp))
    have value : Nat.ofDigitChars 10 (ds ++ [Nat.digitChar n]) 0 =
        10 * Nat.ofDigitChars 10 ds 0 + n := by
      rw [Nat.ofDigitChars_append, Nat.ofDigitChars_cons, Nat.ofDigitChars_nil, back]
    rw [value]
    generalize Nat.ofDigitChars 10 ds 0 = front at parts
    have last : Nat.toDigits 10 n = [Nat.digitChar n] := Nat.toDigits_of_lt_base small
    by_cases none_yet : front = 0
    · rw [if_pos none_yet, List.append_nil] at parts
      rw [none_yet, Nat.mul_zero, Nat.zero_add]
      by_cases zero : n = 0
      · refine ⟨zeros + 1, ?_⟩
        rw [if_pos zero, parts, zero, List.replicate_succ', List.append_nil]
        rfl
      · refine ⟨zeros, ?_⟩
        rw [if_neg zero, parts, last]
    · refine ⟨zeros, ?_⟩
      rw [if_neg none_yet] at parts
      rw [if_neg (by omega), ← Nat.toDigits_append_toDigits (by decide) (by omega) small, last,
        parts, List.append_assoc]

theorem digits?_eq_some_iff {ds : List Char} {n : Nat} (positive : 0 < n) :
    digits? ds = some n ↔ ∃ zeros, ds = List.replicate zeros '0' ++ Nat.toDigits 10 n := by
  constructor
  · intro read
    simp only [digits?, Option.ite_none_left_eq_some, Bool.or_eq_true, Bool.not_eq_true', not_or,
      Bool.not_eq_false, List.all_eq_true, Option.some.injEq] at read
    obtain ⟨⟨-, digits⟩, rfl⟩ := read
    obtain ⟨zeros, parts⟩ := exists_zeros digits
    rw [if_neg (by omega)] at parts
    exact ⟨zeros, parts⟩
  · rintro ⟨zeros, rfl⟩
    have filled : (List.replicate zeros '0' ++ Nat.toDigits 10 n).isEmpty = false := by
      simp [Nat.toDigits_ne_nil]
    have digits : (List.replicate zeros '0' ++ Nat.toDigits 10 n).all Char.isDigit = true := by
      rw [List.all_append, Bool.and_eq_true, List.all_eq_true, List.all_eq_true]
      constructor
      · intro c member
        rw [List.eq_of_mem_replicate member]
        rfl
      · exact fun c member => Nat.isDigit_of_mem_toDigits (by decide) (by decide) member
    have value : Nat.ofDigitChars 10 (List.replicate zeros '0' ++ Nat.toDigits 10 n) 0 = n := by
      rw [Nat.ofDigitChars_append, Nat.ofDigitChars_replicate_zero, Nat.mul_zero,
        Nat.ofDigitChars_ten_toDigits]
    simp only [digits?, filled, digits, value]
    rfl

theorem atMost_eq_some_iff {limit n : Nat} {read : Option Nat} :
    atMost limit read = some n ↔ read = some n ∧ n ≤ limit := by
  rw [atMost, Option.filter_eq_some_iff, decide_eq_true_iff]

/-- Up to a limit, the texts of a number are its decimals with any zeros in front of them, and a
plus sign in front of those or none. -/
theorem unsigned?_eq_some_iff {limit n : Nat} {cs : List Char} (positive : 0 < n) :
    unsigned? limit cs = some n ↔ n ≤ limit ∧ ∃ sign zeros, (sign = [] ∨ sign = ['+']) ∧
      cs = sign ++ (List.replicate zeros '0' ++ Nat.toDigits 10 n) := by
  constructor
  · intro read
    rw [unsigned?.eq_def] at read
    split at read
    · obtain ⟨digits, within⟩ := atMost_eq_some_iff.mp read
      obtain ⟨zeros, rfl⟩ := (digits?_eq_some_iff positive).mp digits
      exact ⟨within, ['+'], zeros, Or.inr rfl, rfl⟩
    · obtain ⟨digits, within⟩ := atMost_eq_some_iff.mp read
      obtain ⟨zeros, rfl⟩ := (digits?_eq_some_iff positive).mp digits
      exact ⟨within, [], zeros, Or.inl rfl, rfl⟩
  · rintro ⟨within, sign, zeros, signs, rfl⟩
    have digits := (digits?_eq_some_iff positive).mpr ⟨zeros, rfl⟩
    rcases signs with rfl | rfl
    · rw [List.nil_append, unsigned?.eq_def]
      split
      · rename_i signed
        rw [signed] at digits
        simp [digits?] at digits
      · exact atMost_eq_some_iff.mpr ⟨digits, within⟩
    · exact atMost_eq_some_iff.mpr ⟨digits, within⟩

end FeedTraffic.Number.Whole
