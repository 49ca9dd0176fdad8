import FeedTraffic.Http.Form
import FeedTraffic.Proofs.Utf8
import Mathlib.Data.List.TakeWhile

/-!
# Reading forms back

What is written as a form reads as the same pairs, whatever characters are in the names and values.
Two facts carry this: a byte reads back from its own text, and no text of a byte holds one of the
two separators.  Nor does it hold the mark behind which a form stands in an address.
-/

namespace FeedTraffic.Http.Form

open FeedTraffic.Text

/-! ## Texts up to a separator -/

section Separators

variable {sep : Char} {front : List Char}

theorem takeWhile_of_not_mem (free : sep ∉ front) : front.takeWhile (· ≠ sep) = front := by
  rw [List.takeWhile_eq_self_iff]
  intro c member
  exact decide_eq_true fun same => free (same ▸ member)

theorem takeWhile_append_cons (free : sep ∉ front) (back : List Char) :
    (front ++ sep :: back).takeWhile (· ≠ sep) = front := by
  have before : ∀ c ∈ front, decide (c ≠ sep) = true := by
    intro c member
    exact decide_eq_true fun same => free (same ▸ member)
  rw [List.takeWhile_append_of_pos before, List.takeWhile_cons_of_neg (by simp), List.append_nil]

theorem dropWhile_append_cons (free : sep ∉ front) (back : List Char) :
    (front ++ sep :: back).dropWhile (· ≠ sep) = sep :: back := by
  have parts := List.takeWhile_append_dropWhile (p := (· ≠ sep)) (l := front ++ sep :: back)
  rw [takeWhile_append_cons free] at parts
  exact List.append_cancel_left parts

end Separators

/-! ## Bytes -/

theorem value?_upper : ∀ n < 16, Hex.value? (Hex.upper n) = some n := by decide

theorem upper_plain : ∀ n < 16, Hex.upper n ∉ ['+', '&', '=', '?'] := by decide

/-- A byte that stands for itself is one ASCII character, and none with a part of its own. -/
theorem plain_facts (b : UInt8) (plain : isPlain b = true) :
    String.utf8EncodeChar (Char.ofNat b.toNat) = [b] ∧
      Char.ofNat b.toNat ∉ ['%', '+', '&', '=', '?'] := by
  have all : ∀ n < 256, isPlain (UInt8.ofNat n) = true →
      String.utf8EncodeChar (Char.ofNat (UInt8.ofNat n).toNat) = [UInt8.ofNat n] ∧
        Char.ofNat (UInt8.ofNat n).toNat ∉ ['%', '+', '&', '=', '?'] := by
    decide +kernel
  have byte : UInt8.ofNat b.toNat = b := UInt8.ofNat_toNat
  exact byte ▸ all b.toNat b.toNat_lt (byte.symm ▸ plain)

def unplus (c : Char) : Char := if c = '+' then ' ' else c

theorem unescape_cons_of_ne {c : Char} (h : c ≠ '%') (cs : List Char) :
    unescape (c :: cs) = String.utf8EncodeChar c ++ unescape cs := by
  rw [unescape]
  intro a b rest percent
  exact absurd percent h

theorem unplus_upper {n : Nat} (h : n < 16) : unplus (Hex.upper n) = Hex.upper n := by
  apply if_neg
  intro plus
  exact upper_plain n h (plus ▸ List.mem_cons_self)

theorem unescape_escape (b : UInt8) (cs : List Char) :
    unescape ((escape b).map unplus ++ cs) = b :: unescape cs := by
  have high : b.toNat / 16 < 16 := by
    have := b.toNat_lt
    omega
  have low : b.toNat % 16 < 16 := Nat.mod_lt _ (by decide)
  have read : Hex.number? [Hex.upper (b.toNat / 16), Hex.upper (b.toNat % 16)] = some b.toNat := by
    simp only [Hex.number?, List.foldlM_cons, List.foldlM_nil, value?_upper _ high,
      value?_upper _ low, Option.map_some, Option.bind_eq_bind, Option.bind_some, pure]
    exact congrArg some (by omega)
  have percent : unplus '%' = '%' := rfl
  simp only [escape, List.map_cons, List.map_nil, List.cons_append, List.nil_append, percent,
    unplus_upper high, unplus_upper low, unescape, read]
  exact congrArg (· :: unescape cs) UInt8.ofNat_toNat

theorem unescape_byteText (b : UInt8) (cs : List Char) :
    unescape ((byteText b).map unplus ++ cs) = b :: unescape cs := by
  by_cases space : b = 0x20
  · subst space
    exact unescape_cons_of_ne (by decide) cs
  have no_space : ¬(b == 0x20) = true := by simpa using space
  by_cases plain : isPlain b = true
  · obtain ⟨bytes, other⟩ := plain_facts b plain
    simp only [List.mem_cons, not_or] at other
    have stays : unplus (Char.ofNat b.toNat) = Char.ofNat b.toNat := if_neg other.2.1
    simp only [byteText, no_space, plain, if_true, if_false, List.map_cons, List.map_nil,
      List.cons_append, List.nil_append, stays, Bool.false_eq_true]
    rw [unescape_cons_of_ne other.1, bytes]
    rfl
  · simp only [byteText, no_space, plain, if_false, Bool.false_eq_true]
    exact unescape_escape b cs

/-- No separator is in the text of a byte. -/
theorem byteText_plain {b : UInt8} {c : Char} (h : c ∈ byteText b) : c ∉ ['&', '=', '?'] := by
  by_cases space : b = 0x20
  · subst space
    obtain rfl := List.mem_singleton.mp h
    decide
  have no_space : ¬(b == 0x20) = true := by simpa using space
  by_cases plain : isPlain b = true
  · obtain ⟨-, other⟩ := plain_facts b plain
    simp only [byteText, no_space, plain, if_true, if_false, Bool.false_eq_true,
      List.mem_singleton] at h
    subst h
    simp only [List.mem_cons, not_or] at other ⊢
    exact other.2.2
  · simp only [byteText, no_space, plain, if_false, Bool.false_eq_true, escape, List.mem_cons,
      List.not_mem_nil, or_false] at h
    have bound := b.toNat_lt
    rcases h with rfl | rfl | rfl
    · decide
    · have other := upper_plain (b.toNat / 16) (by omega)
      simp only [List.mem_cons, not_or] at other ⊢
      exact other.2
    · have other := upper_plain (b.toNat % 16) (by omega)
      simp only [List.mem_cons, not_or] at other ⊢
      exact other.2

/-! ## Names and values -/

theorem bytes_encodeText (s : String) : bytes (encodeText s) = Utf8.encode s.toList := by
  have all : ∀ bs : List UInt8, unescape ((bs.flatMap byteText).map unplus) = bs := by
    intro bs
    induction bs with
    | nil => rfl
    | cons b bs ih =>
      rw [List.flatMap_cons, List.map_append, unescape_byteText, ih]
  exact all (Utf8.encode s.toList)

theorem decodeText_encodeText (s : String) : decodeText (encodeText s) = s := by
  rw [decodeText, bytes_encodeText, Utf8.decode_encode, String.ofList_toList]

theorem encodeText_plain {s : String} {c : Char} (h : c ∈ encodeText s) : c ∉ ['&', '=', '?'] := by
  obtain ⟨b, -, in_byte⟩ := List.mem_flatMap.mp h
  exact byteText_plain in_byte

/-! ## Pairs -/

theorem decodePair_encodePair (p : String × String) : decodePair (encodePair p) = p := by
  have name : '=' ∉ encodeText p.1 := fun member => encodeText_plain member (by decide)
  rw [decodePair, encodePair, takeWhile_append_cons name, dropWhile_append_cons name,
    List.drop_succ_cons, List.drop_zero, decodeText_encodeText, decodeText_encodeText]

/-- Neither what parts the pairs nor the mark in front of them is in a pair. -/
theorem not_mem_encodePair {c : Char} (outside : c = '&' ∨ c = '?') (p : String × String) :
    c ∉ encodePair p := by
  have other {s : String} : c ∉ encodeText s := by
    intro within
    rcases outside with rfl | rfl <;> exact encodeText_plain within (by decide)
  intro h
  rcases List.mem_append.mp h with name | rest
  · exact other name
  · rcases List.mem_cons.mp rest with equals | value
    · rcases outside with rfl | rfl <;> exact absurd equals (by decide)
    · exact other value

theorem encodePair_ne_nil (p : String × String) : encodePair p ≠ [] :=
  List.append_ne_nil_of_right_ne_nil _ (List.cons_ne_nil _ _)

/-! ## Lists of pairs -/

theorem splitOn_of_not_mem {sep : Char} {cs : List Char} (free : sep ∉ cs) :
    splitOn sep cs = [cs] := by
  induction cs with
  | nil => rfl
  | cons c cs ih =>
    simp only [List.mem_cons, not_or] at free
    have other : ¬c = sep := fun same => free.1 same.symm
    rw [splitOn, if_neg other, ih free.2]

theorem splitOn_ne_nil (sep : Char) (cs : List Char) : splitOn sep cs ≠ [] := by
  cases cs with
  | nil => exact List.cons_ne_nil _ _
  | cons c cs =>
    rw [splitOn]
    split
    · exact List.cons_ne_nil _ _
    · split <;> exact List.cons_ne_nil _ _

/-- Before and behind a separator, stretches are found apart. -/
theorem splitOn_append (sep : Char) (front back : List Char) :
    splitOn sep (front ++ sep :: back) = splitOn sep front ++ splitOn sep back := by
  induction front with
  | nil => simp [splitOn]
  | cons c front ih =>
    by_cases same : c = sep
    · rw [List.cons_append, splitOn, if_pos same, splitOn, if_pos same, ih, List.cons_append]
    · rw [List.cons_append, splitOn, if_neg same, splitOn, if_neg same, ih]
      obtain ⟨s, ss, parts⟩ := List.exists_cons_of_ne_nil (splitOn_ne_nil sep front)
      rw [parts]
      rfl

theorem splitOn_encodePairs {ps : List (String × String)} (some_pair : ps ≠ []) :
    splitOn '&' (encodePairs ps) = ps.map encodePair := by
  induction ps with
  | nil => exact absurd rfl some_pair
  | cons p ps ih =>
    cases ps with
    | nil => exact splitOn_of_not_mem (not_mem_encodePair (Or.inl rfl) p)
    | cons q qs =>
      rw [encodePairs, splitOn_append, splitOn_of_not_mem (not_mem_encodePair (Or.inl rfl) p),
        ih (List.cons_ne_nil _ _)]
      · rfl
      · exact List.cons_ne_nil _ _

theorem mark_not_mem_encodePairs (ps : List (String × String)) : '?' ∉ encodePairs ps := by
  induction ps with
  | nil => exact List.not_mem_nil
  | cons p ps ih =>
    cases ps with
    | nil => exact not_mem_encodePair (Or.inr rfl) p
    | cons q qs =>
      intro h
      rcases List.mem_append.mp h with first | rest
      · exact not_mem_encodePair (Or.inr rfl) p first
      · rcases List.mem_cons.mp rest with separator | later
        · exact absurd separator (by decide)
        · exact ih later

theorem decode_encode (ps : List (String × String)) : decode (encode ps) = ps := by
  by_cases none_there : ps = []
  · subst none_there
    decide +kernel
  have kept : (ps.map encodePair).filter (fun cs => !cs.isEmpty) = ps.map encodePair := by
    apply List.filter_eq_self.mpr
    intro cs h
    obtain ⟨p, -, rfl⟩ := List.mem_map.mp h
    simpa using encodePair_ne_nil p
  have back : ∀ p ∈ ps, (decodePair ∘ encodePair) p = id p := fun p _ => decodePair_encodePair p
  rw [decode, encode, String.toList_ofList, splitOn_encodePairs none_there, kept, List.map_map,
    List.map_congr_left back, List.map_id]

end FeedTraffic.Http.Form
