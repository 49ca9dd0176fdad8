import FeedTraffic.Json.Reader
import FeedTraffic.Proofs.JsonGrammar
import Mathlib.Data.List.TakeWhile

/-!
# Every text of a JSON value is read as that value

First the tokens: each is found at the front of a text whatever follows it, except that a number
must not go on.  Then the values: the tokens of a value, in front of any others, make the reader
finish that value.  A text on which something follows the value is refused, whatever it is.
-/

namespace FeedTraffic.Json

open Token

/-! ## Strings -/

theorem value?_of_hexDigit {c : Char} {n : Nat} (h : HexDigit c n) :
    Text.Hex.value? c = some n := by
  have lower : ∀ n < 16, Text.Hex.value? (Nat.digitChar n) = some n := by decide
  have upper : ∀ n < 16, Text.Hex.value? (Nat.digitChar n).toUpper = some n := by decide
  cases h with
  | lower small => exact lower n small
  | upper small => exact upper n small

theorem number?_of_hexDigits {a b c d : Char} {i j k l : Nat} (ha : HexDigit a i)
    (hb : HexDigit b j) (hc : HexDigit c k) (hd : HexDigit d l) :
    Text.Hex.number? [a, b, c, d] = some (((i * 16 + j) * 16 + k) * 16 + l) := by
  simp only [Text.Hex.number?, List.foldlM_cons, List.foldlM_nil, value?_of_hexDigit ha,
    value?_of_hexDigit hb, value?_of_hexDigit hc, value?_of_hexDigit hd, Option.map_some,
    Option.bind_eq_bind, Option.bind_some, Nat.zero_mul, Nat.zero_add]
  rfl

section Pieces

variable {rest left : List Char} {ps : List Piece} (later : pieces? rest = some (ps, left))

include later

theorem pieces?_literal {c : Char} (no_quote : c ≠ '"') (no_backslash : c ≠ '\\')
    (no_control : 32 ≤ c.toNat) : pieces? (c :: rest) = some (.char c :: ps, left) := by
  have allowed : ¬(c == '\\' || decide (c.toNat < 0x20)) = true := by
    simp [no_backslash, no_control]
  rw [pieces?.eq_def]
  split
  · contradiction
  · simp_all
  · simp_all
  · simp_all
  · rename_i heq
    obtain ⟨rfl, rfl⟩ := List.cons.inj heq
    rw [if_neg allowed, later]
    rfl

theorem pieces?_letter {c l : Char} (h : (c, l) ∈ letters) :
    pieces? ('\\' :: l :: rest) = some (.char c :: ps, left) := by
  simp only [letters, List.mem_cons, Prod.mk.injEq, List.not_mem_nil, or_false] at h
  rcases h with ⟨rfl, rfl⟩ | ⟨rfl, rfl⟩ | ⟨rfl, rfl⟩ | ⟨rfl, rfl⟩ | ⟨rfl, rfl⟩ | ⟨rfl, rfl⟩ |
      ⟨rfl, rfl⟩ | ⟨rfl, rfl⟩ <;>
    simp [pieces?, escaped?, later]

/-- A piece in front of a string that can be read. -/
theorem pieces?_of_isPiece {p : Piece} {cs : List Char} (h : IsPiece p cs) :
    pieces? (cs ++ rest) = some (p :: ps, left) := by
  cases h with
  | literal no_quote no_backslash no_control =>
    exact pieces?_literal later no_quote no_backslash no_control
  | letter h => exact pieces?_letter later h
  | number ha hb hc hd => simp [pieces?, number?_of_hexDigits ha hb hc hd, later]

end Pieces

/-- A string is read up to its closing quote. -/
theorem pieces?_of_arePieces {ps : List Piece} {cs : List Char} (h : ArePieces ps cs)
    (rest : List Char) : pieces? (cs ++ '"' :: rest) = some (ps, rest) := by
  induction h with
  | nil => simp [pieces?]
  | cons first _ ih =>
    rw [List.append_assoc]
    exact pieces?_of_isPiece ih first

/-! ## Numbers -/

/-- What does not go on with a number. -/
def Ends (rest : List Char) : Prop :=
  ∀ c tail, rest = c :: tail → c.isDigit = false ∧ c ≠ '.' ∧ c ≠ 'e' ∧ c ≠ 'E'

theorem ends_cons {c : Char} (h : c.isDigit = false ∧ c ≠ '.' ∧ c ≠ 'e' ∧ c ≠ 'E')
    (rest : List Char) : Ends (c :: rest) := by
  rintro d tail ⟨⟩
  exact h

theorem ends_blanks {ws rest : List Char} (blanks : Blanks ws) (ends : Ends rest) :
    Ends (ws ++ rest) := by
  cases ws with
  | nil => exact ends
  | cons c ws =>
    refine ends_cons ?_ _
    rcases blanks c List.mem_cons_self with rfl | rfl | rfl | rfl <;> decide

def EndsDigits (rest : List Char) : Prop := ∀ c tail, rest = c :: tail → c.isDigit = false

theorem Ends.endsDigits {rest : List Char} (ends : Ends rest) : EndsDigits rest :=
  fun c tail same => (ends c tail same).1

theorem digits?_append {ds rest : List Char} (h : Digits ds) (ends : EndsDigits rest) :
    digits? (ds ++ rest) = some (ds, rest) := by
  have none_more : rest.takeWhile Char.isDigit = [] ∧ rest.dropWhile Char.isDigit = rest := by
    cases rest with
    | nil => exact ⟨rfl, rfl⟩
    | cons c tail => simp [ends c tail rfl]
  have taken : (ds ++ rest).takeWhile Char.isDigit = ds := by
    rw [List.takeWhile_append_of_pos h.digits, none_more.1, List.append_nil]
  have left : (ds ++ rest).dropWhile Char.isDigit = rest := by
    rw [List.dropWhile_append_of_pos h.digits, none_more.2]
  have filled : ds.isEmpty = false := List.isEmpty_eq_false_iff.mpr h.filled
  simp only [digits?, taken, left, filled]
  rfl

theorem whole?_append {w rest : List Char} (h : Whole w) (ends : EndsDigits rest) :
    whole? (w ++ rest) = some (w, rest) := by
  cases h with
  | zero => rfl
  | digits other h =>
    rw [whole?.eq_def]
    split
    · rename_i heq
      exact absurd (List.cons.inj heq).1 other
    · exact digits?_append h ends

theorem fraction?_append {f rest : List Char} (h : Fraction f) (ends : EndsDigits rest)
    (no_point : ∀ tail, rest ≠ '.' :: tail) : fraction? (f ++ rest) = some (f, rest) := by
  cases h with
  | absent =>
    rw [List.nil_append, fraction?.eq_def]
    split
    · rename_i tail
      exact absurd rfl (no_point tail)
    · rfl
  | point h => simp [fraction?, digits?_append h ends]

theorem exponent?_append {e rest : List Char} (h : Exponent e) (ends : Ends rest) :
    exponent? (e ++ rest) = some (e, rest) := by
  cases h with
  | absent =>
    cases rest with
    | nil => rfl
    | cons c tail =>
      obtain ⟨-, -, lower, upper⟩ := ends c tail rfl
      simp [exponent?, lower, upper]
  | @unsigned m ds mark h =>
    have marked : (m == 'e' || m == 'E') = true := by simpa using mark
    have read := digits?_append h ends.endsDigits
    cases ds with
    | nil => exact absurd rfl h.filled
    | cons d ds =>
      have unsigned : (d == '+' || d == '-') = false := by
        have digit := h.digits d List.mem_cons_self
        rw [Bool.or_eq_false_iff, beq_eq_false_iff_ne, beq_eq_false_iff_ne]
        constructor <;>
          · rintro rfl
            cases digit
      rw [List.cons_append] at read
      simp [exponent?, marked, unsigned, read]
  | @signed m s ds mark sign h =>
    have marked : (m == 'e' || m == 'E') = true := by simpa using mark
    have signed : (s == '+' || s == '-') = true := by simpa using sign
    simp [exponent?, marked, signed, digits?_append h ends.endsDigits]

/-- Neither what follows a whole part nor what follows a fraction goes on with its digits. -/
theorem endsDigits_exponent {e rest : List Char} (h : Exponent e) (ends : Ends rest) :
    EndsDigits (e ++ rest) ∧ ∀ tail, e ++ rest ≠ '.' :: tail := by
  have marks : ∀ m : Char, m = 'e' ∨ m = 'E' → m.isDigit = false ∧ m ≠ '.' := by
    rintro m (rfl | rfl) <;> decide
  cases h with
  | absent => exact ⟨ends.endsDigits, fun tail same => (ends _ tail same).2.1 rfl⟩
  | unsigned mark h =>
    refine ⟨?_, fun tail same => (marks _ mark).2 (List.cons.inj same).1⟩
    rintro c tail ⟨⟩
    exact (marks _ mark).1
  | signed mark sign h =>
    refine ⟨?_, fun tail same => (marks _ mark).2 (List.cons.inj same).1⟩
    rintro c tail ⟨⟩
    exact (marks _ mark).1

theorem endsDigits_fraction {f rest : List Char} (h : Fraction f) (ends : EndsDigits rest) :
    EndsDigits (f ++ rest) := by
  cases h with
  | absent => exact ends
  | point h =>
    rintro c tail ⟨⟩
    rfl

section Parts

variable {cs w f e a b c : List Char} (hw : whole? cs = some (w, a))
  (hf : fraction? a = some (f, b)) (he : exponent? b = some (e, c))

include hw hf he

theorem number?_of_parts (unsigned : ∀ tail, cs ≠ '-' :: tail) :
    number? cs = some (w ++ (f ++ e), c) := by
  rw [number?]
  · simp [hw, hf, he]
  · exact unsigned

theorem number?_of_signed_parts : number? ('-' :: cs) = some ('-' :: (w ++ (f ++ e)), c) := by
  simp [number?, hw, hf, he]

end Parts

/-- A number is read up to where it ends. -/
theorem number?_append {ds rest : List Char} (h : IsNumber ds) (ends : Ends rest) :
    number? (ds ++ rest) = some (ds, rest) := by
  cases h with
  | @positive w f e hw hf he =>
    obtain ⟨plain, no_point⟩ := endsDigits_exponent he ends
    have unsigned : ∀ tail, w ++ (f ++ (e ++ rest)) ≠ '-' :: tail := by
      intro tail same
      cases hw with
      | zero => cases same
      | digits other h =>
        have digit := h.digits _ List.mem_cons_self
        rw [(List.cons.inj same).1] at digit
        cases digit
    rw [List.append_assoc, List.append_assoc]
    exact number?_of_parts (whole?_append hw (endsDigits_fraction hf plain))
      (fraction?_append hf plain no_point) (exponent?_append he ends) unsigned
  | @negative w f e hw hf he =>
    obtain ⟨plain, no_point⟩ := endsDigits_exponent he ends
    rw [List.cons_append, List.append_assoc, List.append_assoc]
    exact number?_of_signed_parts (whole?_append hw (endsDigits_fraction hf plain))
      (fraction?_append hf plain no_point) (exponent?_append he ends)

/-! ## Tokens -/

theorem head_number {ds : List Char} (h : IsNumber ds) :
    ∃ c tail, ds = c :: tail ∧ (c = '-' ∨ c.isDigit = true) := by
  cases h with
  | negative => exact ⟨'-', _, rfl, Or.inl rfl⟩
  | positive hw =>
    cases hw with
    | zero => exact ⟨'0', _, rfl, Or.inr rfl⟩
    | digits other h => exact ⟨_, _, rfl, Or.inr (h.digits _ List.mem_cons_self)⟩

/-- A sign or digit in front leaves no token but a number. -/
theorem first?_of_start {c : Char} (start : c = '-' ∨ c.isDigit = true) (rest : List Char) :
    first? (c :: rest) = (number? (c :: rest)).map fun (ds, rest) => (.number ds, rest) := by
  have other : ∀ d : Char, d.isDigit = false → d ≠ '-' → c ≠ d := by
    rintro d no_digit no_sign rfl
    rcases start with sign | digit
    · exact no_sign sign
    · rw [no_digit] at digit
      cases digit
  rw [first?.eq_def]
  split
  case h_11 => rfl
  all_goals
    rename_i heq
    exact absurd (List.cons.inj heq).1 (other _ (by decide) (by decide))

theorem not_isBlank_of_start {c : Char} (start : c = '-' ∨ c.isDigit = true) :
    isBlank c = false := by
  rw [Bool.eq_false_iff]
  intro blank
  simp only [isBlank, Bool.or_eq_true, beq_iff_eq, or_assoc] at blank
  revert start
  rcases blank with rfl | rfl | rfl | rfl <;> decide

theorem collect_eq (found : List Token) (cs : List Char) :
    collect found cs =
      match cs.dropWhile isBlank with
      | [] => some found.reverse
      | c :: rest =>
        match first? (c :: rest) with
        | none => none
        | some (t, left) => collect (t :: found) left := by
  rw [collect.eq_def]
  split
  · rename_i heq
    rw [heq]
  · rename_i heq
    rw [heq]
    split <;> simp_all

/-- From the front of one text to another the tokens are these. -/
def Lexes (cs : List Char) (ts : List Token) (rest : List Char) : Prop :=
  ∀ found, collect found cs = collect (ts.reverse ++ found) rest

namespace Lexes

theorem append {cs mid rest : List Char} {ts us : List Token} (first : Lexes cs ts mid)
    (later : Lexes mid us rest) : Lexes cs (ts ++ us) rest := by
  intro found
  rw [first, later, List.reverse_append, List.append_assoc]

theorem cons {cs mid rest : List Char} {t : Token} {ts : List Token} (first : Lexes cs [t] mid)
    (later : Lexes mid ts rest) : Lexes cs (t :: ts) rest := first.append later

theorem blanks {ws : List Char} (blanks : Blanks ws) (rest : List Char) :
    Lexes (ws ++ rest) [] rest := by
  intro found
  have skipped : (ws ++ rest).dropWhile isBlank = rest.dropWhile isBlank := by
    refine List.dropWhile_append_of_pos ?_
    intro c member
    rcases blanks c member with rfl | rfl | rfl | rfl <;> rfl
  rw [collect_eq, skipped, ← collect_eq]
  rfl

/-- A token that does not start with a blank. -/
theorem token {c : Char} {cs rest : List Char} {t : Token} (start : isBlank c = false)
    (h : first? (c :: cs) = some (t, rest)) : Lexes (c :: cs) [t] rest := by
  intro found
  have stays : (c :: cs).dropWhile isBlank = c :: cs := by
    simp [start]
  rw [collect_eq, stays]
  simp only [h]
  rfl

end Lexes

theorem lexes_number {ds rest : List Char} (h : IsNumber ds) (ends : Ends rest) :
    Lexes (ds ++ rest) [.number ds] rest := by
  have read := number?_append h ends
  obtain ⟨c, tail, rfl, start⟩ := head_number h
  rw [List.cons_append] at read ⊢
  refine Lexes.token (not_isBlank_of_start start) ?_
  rw [first?_of_start start, read]
  rfl

theorem lexes_text {ps : List Piece} {cs : List Char} (h : ArePieces ps cs) (rest : List Char) :
    Lexes ('"' :: (cs ++ '"' :: rest)) [.text ps] rest := by
  refine Lexes.token rfl ?_
  simp [first?, pieces?_of_arePieces h rest]

/-! ## The tokens of a value -/

mutual

def tokens : Json → List Token
  | .null => [.null]
  | .bool b => [.bool b]
  | .number ds => [.number ds]
  | .text ps => [.text ps]
  | .array [] => [.openArray, .closeArray]
  | .array (v :: vs) => .openArray :: (tokens v ++ (furtherItems vs ++ [.closeArray]))
  | .object [] => [.openObject, .closeObject]
  | .object ((k, v) :: ms) =>
    .openObject :: .text k :: .colon :: (tokens v ++ (furtherMembers ms ++ [.closeObject]))

/-- The tokens of items behind the first. -/
def furtherItems : List Json → List Token
  | [] => []
  | v :: vs => .comma :: (tokens v ++ furtherItems vs)

/-- The tokens of members behind the first. -/
def furtherMembers : List (List Piece × Json) → List Token
  | [] => []
  | (k, v) :: ms => .comma :: .text k :: .colon :: (tokens v ++ furtherMembers ms)

end

theorem ends_furtherItems {vs : List Json} {cs rest : List Char} (h : FurtherItems vs cs)
    (ends : Ends rest) : Ends (cs ++ rest) := by
  cases h with
  | none => exact ends
  | more blanks item others =>
    rw [List.append_assoc]
    exact ends_blanks blanks (ends_cons (by decide) _)

theorem ends_furtherMembers {ms : List (List Piece × Json)} {cs rest : List Char}
    (h : FurtherMembers ms cs) (ends : Ends rest) : Ends (cs ++ rest) := by
  cases h with
  | none => exact ends
  | more blanks member others =>
    rw [List.append_assoc]
    exact ends_blanks blanks (ends_cons (by decide) _)

mutual

/-- The tokens of a text of a value are those of the value.  Only a number minds what follows. -/
theorem IsText.lexes {v : Json} {cs : List Char} (h : IsText v cs) (rest : List Char)
    (ends : (∃ ds, v = .number ds) → Ends rest) : Lexes (cs ++ rest) (tokens v) rest := by
  cases h with
  | null blanks =>
    rw [List.append_assoc]
    exact (Lexes.blanks blanks _).append (Lexes.token rfl rfl)
  | true blanks =>
    rw [List.append_assoc]
    exact (Lexes.blanks blanks _).append (Lexes.token rfl rfl)
  | false blanks =>
    rw [List.append_assoc]
    exact (Lexes.blanks blanks _).append (Lexes.token rfl rfl)
  | number blanks h =>
    rw [List.append_assoc]
    exact (Lexes.blanks blanks _).append (lexes_number h (ends ⟨_, rfl⟩))
  | text blanks h =>
    rw [List.append_assoc, List.cons_append, List.append_assoc]
    exact (Lexes.blanks blanks _).append (lexes_text h rest)
  | noItems blanks closing =>
    simp only [List.append_assoc, List.cons_append, List.nil_append]
    refine (Lexes.blanks blanks _).append ?_
    refine Lexes.cons (Lexes.token rfl rfl) ?_
    exact (Lexes.blanks closing _).append (Lexes.token rfl rfl)
  | array blanks first others closing =>
    simp only [List.append_assoc, List.cons_append, List.nil_append]
    have ended : Ends (']' :: rest) := ends_cons (by decide) _
    refine (Lexes.blanks blanks _).append ?_
    refine Lexes.cons (Lexes.token rfl rfl) ?_
    refine (first.lexes _ fun _ => ?_).append ?_
    · exact ends_furtherItems others (ends_blanks closing ended)
    refine (others.lexes _ (ends_blanks closing ended)).append ?_
    exact (Lexes.blanks closing _).append (Lexes.token rfl rfl)
  | noMembers blanks closing =>
    simp only [List.append_assoc, List.cons_append, List.nil_append]
    refine (Lexes.blanks blanks _).append ?_
    refine Lexes.cons (Lexes.token rfl rfl) ?_
    exact (Lexes.blanks closing _).append (Lexes.token rfl rfl)
  | object blanks first others closing =>
    simp only [List.append_assoc, List.cons_append, List.nil_append]
    have ended : Ends ('\x7d' :: rest) := ends_cons (by decide) _
    refine (Lexes.blanks blanks _).append ?_
    refine Lexes.cons (Lexes.token rfl rfl) ?_
    refine (first.lexes _ ?_).append ?_
    · exact ends_furtherMembers others (ends_blanks closing ended)
    refine (others.lexes _ (ends_blanks closing ended)).append ?_
    exact (Lexes.blanks closing _).append (Lexes.token rfl rfl)

theorem FurtherItems.lexes {vs : List Json} {cs : List Char} (h : FurtherItems vs cs)
    (rest : List Char) (ends : Ends rest) : Lexes (cs ++ rest) (furtherItems vs) rest := by
  cases h with
  | none => exact fun found => rfl
  | more blanks item others =>
    simp only [List.append_assoc, List.cons_append]
    refine (Lexes.blanks blanks _).append ?_
    refine Lexes.cons (Lexes.token rfl rfl) ?_
    refine (item.lexes _ fun _ => ?_).append (others.lexes rest ends)
    exact ends_furtherItems others ends

theorem IsMember.lexes {m : List Piece × Json} {cs : List Char} (h : IsMember m cs)
    (rest : List Char) (ends : Ends rest) :
    Lexes (cs ++ rest) (.text m.1 :: .colon :: tokens m.2) rest := by
  cases h with
  | mk blanks key between value =>
    simp only [List.append_assoc, List.cons_append]
    refine (Lexes.blanks blanks _).append ?_
    refine (lexes_text key _).append ?_
    refine (Lexes.blanks between _).append ?_
    refine Lexes.cons (Lexes.token rfl rfl) ?_
    exact value.lexes rest fun _ => ends

theorem FurtherMembers.lexes {ms : List (List Piece × Json)} {cs : List Char}
    (h : FurtherMembers ms cs) (rest : List Char) (ends : Ends rest) :
    Lexes (cs ++ rest) (furtherMembers ms) rest := by
  cases h with
  | none => exact fun found => rfl
  | more blanks member others =>
    simp only [List.append_assoc, List.cons_append]
    refine (Lexes.blanks blanks _).append ?_
    refine Lexes.cons (Lexes.token rfl rfl) ?_
    exact (member.lexes _ (ends_furtherMembers others ends)).append (others.lexes rest ends)

end

/-! ## Values from tokens -/

/-- The tokens of a value do not start like the end of an array. -/
theorem head_tokens (v : Json) (ts : List Token) :
    ∀ more, tokens v ++ ts ≠ .closeArray :: more := by
  intro more
  cases v with
  | array vs => cases vs <;> simp [tokens]
  | object ms =>
    cases ms with
    | nil => simp [tokens]
    | cons m ms => obtain ⟨k, w⟩ := m; simp [tokens]
  | _ => simp [tokens]

theorem resume_openArray {ts : List Token} (filled : ∀ more, ts ≠ .closeArray :: more)
    (stack : List Open) :
    resume (.openArray :: ts) stack none = resume ts (.array [] :: stack) none := by
  rw [resume]
  exact filled

mutual

/-- The tokens of a value make the reader finish it, whatever is still open. -/
theorem resume_tokens (v : Json) (ts : List Token) (stack : List Open) :
    resume (tokens v ++ ts) stack none = resume ts stack (some v) := by
  cases v with
  | null => simp [tokens, resume]
  | bool b => simp [tokens, resume]
  | number ds => simp [tokens, resume]
  | text ps => simp [tokens, resume]
  | array vs =>
    cases vs with
    | nil => simp [tokens, resume]
    | cons v vs =>
      simp only [tokens, List.cons_append, List.append_assoc, List.nil_append]
      rw [resume_openArray (head_tokens v _), resume_tokens v]
      exact resume_furtherItems vs v [] ts stack
  | object ms =>
    cases ms with
    | nil => simp [tokens, resume]
    | cons m ms =>
      obtain ⟨k, v⟩ := m
      simp only [tokens, List.cons_append, List.append_assoc, List.nil_append]
      rw [resume, resume_tokens v]
      exact resume_furtherMembers ms k v [] ts stack

theorem resume_furtherItems (vs : List Json) (v : Json) (done : List Json) (ts : List Token)
    (stack : List Open) :
    resume (furtherItems vs ++ .closeArray :: ts) (.array done :: stack) (some v) =
      resume ts stack (some (.array (done.reverse ++ v :: vs))) := by
  cases vs with
  | nil => simp [furtherItems, resume]
  | cons w vs =>
    simp only [furtherItems, List.cons_append, List.append_assoc]
    rw [resume, resume_tokens w, resume_furtherItems vs w]
    simp

theorem resume_furtherMembers (ms : List (List Piece × Json)) (k : List Piece) (v : Json)
    (done : List (List Piece × Json)) (ts : List Token) (stack : List Open) :
    resume (furtherMembers ms ++ .closeObject :: ts) (.object done k :: stack) (some v) =
      resume ts stack (some (.object (done.reverse ++ (k, v) :: ms))) := by
  cases ms with
  | nil => simp [furtherMembers, resume]
  | cons m ms =>
    obtain ⟨l, w⟩ := m
    simp only [furtherMembers, List.cons_append, List.append_assoc]
    rw [resume, resume_tokens w, resume_furtherMembers ms l w]
    simp

end

/-! ## Whole texts -/

/-- A text of a value is read as the value. -/
theorem ofText?_of_isDocument {v : Json} {s : String} (h : IsDocument v s) :
    ofText? s = some v := by
  obtain ⟨cs, ws, text, blanks, chars⟩ := h
  have ends : Ends (ws ++ []) := ends_blanks blanks fun c tail same => nomatch same
  rw [List.append_nil] at ends
  have front := text.lexes ws fun _ => ends
  have back : Lexes ws [] [] := by
    have skipped := Lexes.blanks blanks []
    rwa [List.append_nil] at skipped
  have lexed : Token.ofText? s.toList = some (tokens v) := by
    rw [Token.ofText?, chars, front, back, collect_eq]
    simp
  have finished : resume (tokens v) [] none = some v := by
    have read := resume_tokens v [] []
    rw [List.append_nil] at read
    rw [read]
    simp [resume]
  simp [ofText?, lexed, finished]

/-- Only blanks hold no token. -/
theorem collect_eq_some {found : List Token} {cs : List Char} {ts : List Token}
    (h : collect found cs = some ts) :
    ∃ us, ts = found.reverse ++ us ∧ (us = [] → Blanks cs) := by
  fun_induction collect found cs with
  | case1 found cs front =>
    refine ⟨[], by simpa using (Option.some.inj h).symm, fun _ c member => ?_⟩
    have blank : isBlank c = true := List.dropWhile_eq_nil_iff.mp front c member
    simpa [isBlank, or_assoc] using blank
  | case2 => simp at h
  | case3 found cs c rest front t left token ih =>
    obtain ⟨us, rfl, -⟩ := ih h
    exact ⟨t :: us, by simp, nofun⟩

/-- Anything but blanks behind an object spoils the text. -/
theorem ofText?_of_trailing {ms : List (List Piece × Json)} {cs rest : List Char} {s : String}
    (h : IsText (.object ms) cs) (more : ¬Blanks rest) (chars : s.toList = cs ++ rest) :
    ofText? s = none := by
  have front : collect [] (cs ++ rest) = collect (tokens (.object ms)).reverse rest := by
    have no_number : (∃ ds, Json.object ms = .number ds) → Ends rest := by
      rintro ⟨ds, ⟨⟩⟩
    rw [h.lexes rest no_number, List.append_nil]
  cases lexed : collect (tokens (.object ms)).reverse rest with
  | none => simp [ofText?, Token.ofText?, chars, front, lexed]
  | some ts =>
    obtain ⟨us, rfl, blank⟩ := collect_eq_some lexed
    have refused : resume (tokens (.object ms) ++ us) [] none = none := by
      rw [resume_tokens]
      cases us with
      | nil => exact absurd (blank rfl) more
      | cons u us => simp [resume]
    rw [List.reverse_reverse] at lexed
    simp [ofText?, Token.ofText?, chars, front, lexed, refused]

end FeedTraffic.Json
