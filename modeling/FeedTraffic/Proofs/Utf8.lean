import FeedTraffic.Text.Utf16

/-!
# Reading UTF-8 back

The bytes of a text read as that text.  A first byte alone says how many bytes follow it and
within which bounds; the bounds of the second byte are narrower behind four of the first bytes,
and no character of a text falls outside them.
-/

namespace FeedTraffic.Text.Utf8

/-! ## First bytes -/

theorem tailRanges_one {b : UInt8} (h : b.toNat < 0x80) : tailRanges b = some [] := by
  have low : b < 0x80 := h
  rw [tailRanges, if_pos low]

theorem tailRanges_two {b : UInt8} (lo : 0xC2 ≤ b.toNat) (hi : b.toNat < 0xE0) :
    tailRanges b = some [(0x80, 0xBF)] := by
  have past_one : ¬b < 0x80 := by
    simp only [UInt8.lt_iff_toNat_lt, UInt8.reduceToNat]
    omega
  have past_tails : ¬b < 0xC2 := by
    simp only [UInt8.lt_iff_toNat_lt, UInt8.reduceToNat]
    omega
  have two : b < 0xE0 := hi
  rw [tailRanges, if_neg past_one, if_neg past_tails, if_pos two]

theorem tailRanges_three {b : UInt8} (lo : 0xE0 ≤ b.toNat) (hi : b.toNat < 0xF0) :
    tailRanges b = some [(if b.toNat = 0xE0 then 0xA0 else 0x80,
      if b.toNat = 0xED then 0x9F else 0xBF), (0x80, 0xBF)] := by
  simp only [tailRanges, UInt8.lt_iff_toNat_lt, ← UInt8.toNat_inj, UInt8.reduceToNat]
  grind

theorem tailRanges_four {b : UInt8} (lo : 0xF0 ≤ b.toNat) (hi : b.toNat ≤ 0xF4) :
    tailRanges b = some [(if b.toNat = 0xF0 then 0x90 else 0x80,
      if b.toNat = 0xF4 then 0x8F else 0xBF), (0x80, 0xBF), (0x80, 0xBF)] := by
  simp only [tailRanges, UInt8.lt_iff_toNat_lt, ← UInt8.toNat_inj, UInt8.reduceToNat]
  grind

/-! ## Tails -/

theorem matched_nil (bs : List UInt8) : matched [] bs = 0 := by
  cases bs <;> rfl

theorem matched_cons {lo hi b : UInt8} (ranges : List (UInt8 × UInt8)) (bs : List UInt8)
    (above : lo.toNat ≤ b.toNat) (below : b.toNat ≤ hi.toNat) :
    matched ((lo, hi) :: ranges) (b :: bs) = matched ranges bs + 1 := by
  have inside : lo ≤ b ∧ b ≤ hi := ⟨above, below⟩
  rw [matched, if_pos inside]

theorem toNat_tail (n : Nat) : (UInt8.ofNat (n % 64 + 0x80)).toNat = n % 64 + 0x80 :=
  UInt8.toNat_ofNat_of_lt (show _ < 256 by omega)

theorem matched_tail (n : Nat) (ranges : List (UInt8 × UInt8)) (bs : List UInt8) :
    matched ((0x80, 0xBF) :: ranges) (UInt8.ofNat (n % 64 + 0x80) :: bs) =
      matched ranges bs + 1 := by
  apply matched_cons <;> simp only [toNat_tail, UInt8.reduceToNat] <;> omega

/-- A first byte and a tail within its bounds are one character. -/
theorem decode_cons_append {b : UInt8} {ranges : List (UInt8 × UInt8)} (tail rest : List UInt8)
    (first : tailRanges b = some ranges) (length : tail.length = ranges.length)
    (fits : matched ranges (tail ++ rest) = ranges.length) :
    decode (b :: (tail ++ rest)) = assemble b tail :: decode rest := by
  rw [decode, first]
  simp only [fits, if_true, ← length, List.take_left, List.drop_left]

/-! ## Characters -/

section Character

variable {c : Char} (rest : List UInt8)

theorem decode_one (hi : c.toNat ≤ 0x7F) :
    decode (UInt8.ofNat c.toNat :: rest) = c :: decode rest := by
  have lead : (UInt8.ofNat c.toNat).toNat = c.toNat :=
    UInt8.toNat_ofNat_of_lt (show _ < 256 by omega)
  have first : tailRanges (UInt8.ofNat c.toNat) = some [] := tailRanges_one (by omega)
  refine (decode_cons_append [] rest first rfl rfl).trans ?_
  simp only [assemble, List.length_nil, List.foldl_nil, lead, Char.ofNat_toNat]

theorem decode_two (lo : 0x7F < c.toNat) (hi : c.toNat ≤ 0x7FF) :
    decode (UInt8.ofNat (c.toNat / 64 % 0x20 + 0xC0) ::
      UInt8.ofNat (c.toNat % 0x40 + 0x80) :: rest) = c :: decode rest := by
  have lead : (UInt8.ofNat (c.toNat / 64 % 0x20 + 0xC0)).toNat = c.toNat / 64 % 0x20 + 0xC0 :=
    UInt8.toNat_ofNat_of_lt (show _ < 256 by omega)
  have first := tailRanges_two (b := UInt8.ofNat (c.toNat / 64 % 0x20 + 0xC0))
    (by omega) (by omega)
  have fits := (matched_tail c.toNat [] rest).trans (congrArg (· + 1) (matched_nil rest))
  refine (decode_cons_append [_] rest first rfl fits).trans ?_
  have whole : (c.toNat / 64 % 0x20 + 0xC0) % 32 * 64 + (c.toNat % 0x40 + 0x80) % 64 = c.toNat := by
    omega
  simp only [assemble, List.length_cons, List.length_nil, List.foldl_cons, List.foldl_nil, lead,
    toNat_tail, whole, Char.ofNat_toNat]

/-- Behind `E0` the second byte is large, for the number is not one of eleven bits; behind `ED` it
is small, for the number is no surrogate. -/
theorem decode_three (lo : 0x7FF < c.toNat) (hi : c.toNat ≤ 0xFFFF) :
    decode (UInt8.ofNat (c.toNat / 4096 % 0x10 + 0xE0) ::
      UInt8.ofNat (c.toNat / 64 % 0x40 + 0x80) ::
      UInt8.ofNat (c.toNat % 0x40 + 0x80) :: rest) = c :: decode rest := by
  have valid : c.toNat < 0xD800 ∨ 0xDFFF < c.toNat ∧ c.toNat < 0x110000 := c.valid
  have lead : (UInt8.ofNat (c.toNat / 4096 % 0x10 + 0xE0)).toNat = c.toNat / 4096 % 0x10 + 0xE0 :=
    UInt8.toNat_ofNat_of_lt (show _ < 256 by omega)
  have first := tailRanges_three (b := UInt8.ofNat (c.toNat / 4096 % 0x10 + 0xE0))
    (by omega) (by omega)
  rw [lead] at first
  have second := toNat_tail (c.toNat / 64)
  have fits : matched [(if c.toNat / 4096 % 0x10 + 0xE0 = 0xE0 then 0xA0 else 0x80,
      if c.toNat / 4096 % 0x10 + 0xE0 = 0xED then 0x9F else 0xBF), (0x80, 0xBF)]
      (UInt8.ofNat (c.toNat / 64 % 0x40 + 0x80) :: UInt8.ofNat (c.toNat % 0x40 + 0x80) :: rest) =
        2 := by
    rw [matched_cons, matched_tail, matched_nil]
    · rw [second]
      split <;> simp only [UInt8.reduceToNat] <;> omega
    · rw [second]
      split <;> simp only [UInt8.reduceToNat] <;> omega
  refine (decode_cons_append [_, _] rest first rfl fits).trans ?_
  have whole : ((c.toNat / 4096 % 0x10 + 0xE0) % 16 * 64 + (c.toNat / 64 % 0x40 + 0x80) % 64) * 64 +
      (c.toNat % 0x40 + 0x80) % 64 = c.toNat := by
    omega
  simp only [assemble, List.length_cons, List.length_nil, List.foldl_cons, List.foldl_nil, lead,
    toNat_tail, whole, Char.ofNat_toNat]

/-- Behind `F0` the second byte is large, for the number is not one of sixteen bits; behind `F4` it
is small, for the numbers of characters end there. -/
theorem decode_four (lo : 0xFFFF < c.toNat) :
    decode (UInt8.ofNat (c.toNat / 262144 % 0x08 + 0xF0) ::
      UInt8.ofNat (c.toNat / 4096 % 0x40 + 0x80) ::
      UInt8.ofNat (c.toNat / 64 % 0x40 + 0x80) ::
      UInt8.ofNat (c.toNat % 0x40 + 0x80) :: rest) = c :: decode rest := by
  have valid : c.toNat < 0xD800 ∨ 0xDFFF < c.toNat ∧ c.toNat < 0x110000 := c.valid
  have lead : (UInt8.ofNat (c.toNat / 262144 % 0x08 + 0xF0)).toNat =
      c.toNat / 262144 % 0x08 + 0xF0 :=
    UInt8.toNat_ofNat_of_lt (show _ < 256 by omega)
  have first := tailRanges_four (b := UInt8.ofNat (c.toNat / 262144 % 0x08 + 0xF0))
    (by omega) (by omega)
  rw [lead] at first
  have second := toNat_tail (c.toNat / 4096)
  have fits : matched [(if c.toNat / 262144 % 0x08 + 0xF0 = 0xF0 then 0x90 else 0x80,
      if c.toNat / 262144 % 0x08 + 0xF0 = 0xF4 then 0x8F else 0xBF), (0x80, 0xBF), (0x80, 0xBF)]
      (UInt8.ofNat (c.toNat / 4096 % 0x40 + 0x80) :: UInt8.ofNat (c.toNat / 64 % 0x40 + 0x80) ::
        UInt8.ofNat (c.toNat % 0x40 + 0x80) :: rest) = 3 := by
    rw [matched_cons, matched_tail, matched_tail, matched_nil]
    · rw [second]
      split <;> simp only [UInt8.reduceToNat] <;> omega
    · rw [second]
      split <;> simp only [UInt8.reduceToNat] <;> omega
  refine (decode_cons_append [_, _, _] rest first rfl fits).trans ?_
  have whole : (((c.toNat / 262144 % 0x08 + 0xF0) % 8 * 64 + (c.toNat / 4096 % 0x40 + 0x80) % 64) *
      64 + (c.toNat / 64 % 0x40 + 0x80) % 64) * 64 + (c.toNat % 0x40 + 0x80) % 64 = c.toNat := by
    omega
  simp only [assemble, List.length_cons, List.length_nil, List.foldl_cons, List.foldl_nil, lead,
    toNat_tail, whole, Char.ofNat_toNat]

theorem decode_encodeChar (c : Char) :
    decode (String.utf8EncodeChar c ++ rest) = c :: decode rest := by
  simp only [String.utf8EncodeChar, Char.toNat_val]
  by_cases one : c.toNat ≤ 0x7F
  · rw [if_pos one]
    exact decode_one rest one
  rw [if_neg one]
  by_cases two : c.toNat ≤ 0x7FF
  · rw [if_pos two]
    exact decode_two rest (by omega) two
  rw [if_neg two]
  by_cases three : c.toNat ≤ 0xFFFF
  · rw [if_pos three]
    exact decode_three rest (by omega) three
  · rw [if_neg three]
    exact decode_four rest (by omega)

end Character

/-! ## Texts -/

theorem decode_encode (cs : List Char) : decode (encode cs) = cs := by
  induction cs with
  | nil => simp [encode, decode]
  | cons c cs ih =>
    rw [encode, List.flatMap_cons, decode_encodeChar]
    exact congrArg _ ih

/-- Some bytes stand nowhere in a text, those of two byte order marks among them. -/
theorem toNat_lt_of_mem_encode {cs : List Char} {b : UInt8} (h : b ∈ encode cs) :
    b.toNat < 0xF8 := by
  obtain ⟨c, -, member⟩ := List.mem_flatMap.mp h
  have low : ∀ byte ∈ String.utf8EncodeChar c, byte.toNat < 0xF8 := by
    simp only [String.utf8EncodeChar, Char.toNat_val]
    repeat' split
    all_goals
      simp only [List.forall_mem_cons, List.not_mem_nil, false_implies, implies_true, and_true,
        UInt8.toNat_ofNat']
      omega
  exact low b member

/-- A text that does not begin with a byte order mark is read back as a body. -/
theorem decodeBody_encode {cs : List Char} (no_mark : cs.head? ≠ some '\uFEFF') :
    decodeBody (encode cs) = cs := by
  have read := decode_encode cs
  have low (b : UInt8) (rest : List UInt8) (starts : encode cs = b :: rest) : b.toNat < 0xF8 :=
    toNat_lt_of_mem_encode (starts ▸ List.mem_cons_self)
  rw [decodeBody.eq_def]
  split
  · rename_i rest marked
    have mark : decode (0xEF :: 0xBB :: 0xBF :: rest) = '\uFEFF' :: decode rest :=
      decode_three (c := '\uFEFF') rest (by decide) (by decide)
    rw [marked, mark] at read
    rw [← read] at no_mark
    exact absurd rfl no_mark
  · rename_i rest marked
    exact absurd (low _ _ marked) (by decide)
  · rename_i rest marked
    exact absurd (low _ _ marked) (by decide)
  · exact read

end FeedTraffic.Text.Utf8
