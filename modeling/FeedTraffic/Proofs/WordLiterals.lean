import FeedTraffic.Settings.Variable
import Mathlib.Data.List.TakeWhile

/-!
# Words of hexadecimal digits as literals

A word of hexadecimal digits holds no character that means something in a literal.  As the value
of a variable it is a number if it is one in decimal digits and small enough, and else the text as
it stands.  Between double quotes it always is the text.
-/

namespace FeedTraffic.Text.Hex

theorem toNat_of_isDigit {c : Char} (h : isDigit c = true) :
    (48 ≤ c.toNat ∧ c.toNat ≤ 57) ∨ (97 ≤ c.toNat ∧ c.toNat ≤ 102) ∨
      (65 ≤ c.toNat ∧ c.toNat ≤ 70) := by
  simpa [isDigit_iff, Char.le_def, UInt32.le_iff_toNat_le] using h

theorem isBlank_of_isDigit {c : Char} (h : isDigit c = true) : isBlank c = false := by
  have range := toNat_of_isDigit h
  simp only [isBlank, Bool.or_eq_false_iff, Bool.and_eq_false_iff, decide_eq_false_iff_not,
    beq_eq_false_iff_ne]
  omega

end FeedTraffic.Text.Hex

namespace FeedTraffic.Settings.Variable

open FeedTraffic.Number

def IsWord (cs : List Char) : Prop := ∀ c ∈ cs, Text.Hex.isDigit c = true

theorem IsWord.tail {c : Char} {cs : List Char} (word : IsWord (c :: cs)) : IsWord cs :=
  fun d member => word d (List.mem_cons_of_mem c member)

theorem dropWhile_eq_self {p : Char → Bool} {cs : List Char} (none_is : ∀ c ∈ cs, p c = false) :
    cs.dropWhile p = cs := by
  cases cs with
  | nil => rfl
  | cons c cs => rw [List.dropWhile_cons, none_is c List.mem_cons_self, if_neg Bool.false_ne_true]

section Words

variable {cs : List Char} (word : IsWord cs)

include word

theorem IsWord.not_mem {c : Char} (other : Text.Hex.isDigit c = false) : c ∉ cs := by
  intro member
  rw [word c member] at other
  cases other

theorem IsWord.skipBlanks : skipBlanks cs = cs := by
  refine dropWhile_eq_self fun c member => ?_
  simp only [Text.isAsciiBlank, Bool.or_eq_false_iff, beq_eq_false_iff_ne]
  refine ⟨⟨⟨⟨?_, ?_⟩, ?_⟩, ?_⟩, ?_⟩ <;>
    · rintro rfl
      exact word.not_mem (by decide) member

theorem IsWord.trimList : Text.trimList cs = cs := by
  have none_blank : ∀ c ∈ cs, Text.isBlank c = false := fun c member =>
    Text.Hex.isBlank_of_isDigit (word c member)
  rw [Text.trimList, dropWhile_eq_self none_blank,
    dropWhile_eq_self fun c member => none_blank c (List.mem_reverse.mp member),
    List.reverse_reverse]

theorem IsWord.no_separator : ∀ c ∈ cs, (!isSeparator c) = true := by
  intro c member
  simp only [isSeparator, Bool.not_eq_true', Bool.or_eq_false_iff, beq_eq_false_iff_ne]
  refine ⟨⟨⟨⟨?_, ?_⟩, ?_⟩, ?_⟩, ?_⟩ <;>
    · rintro rfl
      exact word.not_mem (by decide) member

/-- A word begins no literal of another kind. -/
theorem literal?_word (fuel : Nat) :
    literal? (fuel + 1) cs = some (.scalar .environment (plain cs), []) := by
  simp only [literal?, word.skipBlanks]
  split
  case h_8 =>
    rw [List.takeWhile_eq_self_iff.mpr word.no_separator,
      List.dropWhile_eq_nil_iff.mpr word.no_separator, word.trimList]
    rfl
  case h_2 => exact absurd (by simp) (word.not_mem (c := 'l') (by decide))
  all_goals exact absurd List.mem_cons_self (word.not_mem (by decide))

/-- In decimal digits a word is a number, as long as it fits in 64 bits. -/
theorem plain_word (filled : cs ≠ []) :
    plain cs =
      if cs.all Char.isDigit ∧ Nat.ofDigitChars 10 cs 0 < 2 ^ 64 then
        .unsigned (Nat.ofDigitChars 10 cs 0)
      else .text (String.ofList cs) := by
  -- A word has no sign, so a signed number in it would be an unsigned one that is smaller.
  have unsigned (limit : Nat) :
      Whole.unsigned? limit cs = Whole.atMost limit (Whole.digits? cs) := by
    rw [Whole.unsigned?]
    rintro rest rfl
    exact word.not_mem (by decide) List.mem_cons_self
  have signed (limit : Nat) :
      Whole.signed? limit cs = (Whole.unsigned? limit cs).map Int.ofNat := by
    rw [Whole.signed?]
    rintro rest rfl
    exact word.not_mem (by decide) List.mem_cons_self
  have no_point : cs.contains '.' = false := by
    simpa using word.not_mem (c := '.') (by decide)
  have at_most (limit : Nat) (n : Nat) :
      Whole.atMost limit (some n) = if n ≤ limit then some n else none := by
    by_cases fits : n ≤ limit
    · simp [Whole.atMost, fits]
    · simp [Whole.atMost, fits, not_le.mp fits]
  simp only [plain, no_point, Bool.false_eq_true, if_false, signed, unsigned]
  by_cases digits : cs.all Char.isDigit = true
  · have read : Whole.digits? cs = some (Nat.ofDigitChars 10 cs 0) := by
      simp [Whole.digits?, filled, digits]
    simp only [read, at_most, digits, true_and]
    by_cases small : Nat.ofDigitChars 10 cs 0 < 2 ^ 64
    · rw [if_pos (show _ ≤ 2 ^ 64 - 1 by omega), if_pos small]
    · rw [if_neg (show ¬_ ≤ 2 ^ 64 - 1 by omega), if_neg (show ¬_ ≤ 2 ^ 63 - 1 by omega),
        if_neg small]
      rfl
  · have read : Whole.digits? cs = none := by simp [Whole.digits?, digits]
    rw [read, if_neg (fun both => digits both.1)]
    rfl

/-! ## Between quotes -/

theorem quotedSpan_word (rest : List Char) : quotedSpan (cs ++ '"' :: rest) = some (cs, rest) := by
  induction cs with
  | nil => rfl
  | cons c cs ih =>
    have no_quote : c ≠ '"' := by
      rintro rfl
      exact word.not_mem (by decide) List.mem_cons_self
    have no_escape : c ≠ '\\' := by
      rintro rfl
      exact word.not_mem (by decide) List.mem_cons_self
    simp [quotedSpan, no_escape, ih word.tail]

theorem unescape_word : unescape cs = some cs := by
  induction cs with
  | nil => rfl
  | cons c cs ih =>
    have no_escape : c ≠ '\\' := by
      rintro rfl
      exact word.not_mem (by decide) List.mem_cons_self
    have range := Text.Hex.toNat_of_isDigit (word c List.mem_cons_self)
    have no_control : ¬c.toNat < 0x20 := by omega
    have no_delete : c.toNat ≠ 0x7F := by omega
    simp [unescape, no_escape, no_control, no_delete, ih word.tail]

theorem literal?_quoted (fuel : Nat) :
    literal? (fuel + 1) ('"' :: (cs ++ ['"'])) =
      some (.scalar .environment (.text (String.ofList cs)), []) := by
  have starts : skipBlanks ('"' :: (cs ++ ['"'])) = '"' :: (cs ++ ['"']) := rfl
  have read : quoted? ('"' :: (cs ++ ['"'])) = some (cs, []) := by
    simp [quoted?, quotedSpan_word word, unescape_word word]
  simp only [literal?, starts, read]
  rfl

end Words

/-! ## Values of variables -/

theorem value_word {s : String} (word : IsWord s.toList) (filled : s ≠ "") :
    value s = .scalar .environment
      (if s.toList.all Char.isDigit ∧ Nat.ofDigitChars 10 s.toList 0 < 2 ^ 64 then
        .unsigned (Nat.ofDigitChars 10 s.toList 0)
      else .text s) := by
  have plain := plain_word word (by simpa using filled)
  rw [String.ofList_toList] at plain
  rw [value, literal?_word word, plain]

theorem value_quoted {s : String} (word : IsWord s.toList) :
    value ("\"" ++ s ++ "\"") = .scalar .environment (.text s) := by
  have chars : ("\"" ++ s ++ "\"").toList = '"' :: (s.toList ++ ['"']) := by simp
  rw [value, chars, literal?_quoted word, String.ofList_toList]

end FeedTraffic.Settings.Variable
