import FeedTraffic.Json.Basic
import FeedTraffic.Text.Hex

/-!
# Tokens of a JSON text

A JSON text is first cut into brackets, separators, literals, numbers and strings; blanks between
them are left out.  The cut is maximal: a number goes as far as its grammar allows, so `01` gives
two numbers and no text has two readings.
-/

namespace FeedTraffic.Json

inductive Token where
  | openArray
  | closeArray
  | openObject
  | closeObject
  | colon
  | comma
  | null
  | bool (b : Bool)
  | number (digits : List Char)
  | text (pieces : List Piece)
  deriving DecidableEq, Repr

namespace Token

def isBlank (c : Char) : Bool := c == ' ' || c == '\n' || c == '\t' || c == '\r'

/-- The character behind a backslash, where it is one letter. -/
def escaped? (c : Char) : Option Char :=
  match c with
  | '"' => some '"'
  | '\\' => some '\\'
  | '/' => some '/'
  | 'b' => some '\x08'
  | 'f' => some '\x0c'
  | 'n' => some '\n'
  | 'r' => some '\r'
  | 't' => some '\t'
  | _ => none

/-- The pieces of a string behind its opening quote, and what follows the closing one. -/
def pieces? : List Char → Option (List Piece × List Char)
  | [] => none
  | '"' :: rest => some ([], rest)
  | '\\' :: 'u' :: a :: b :: c :: d :: rest => do
    let n ← Text.Hex.number? [a, b, c, d]
    let (ps, rest) ← pieces? rest
    pure (.unit n :: ps, rest)
  | '\\' :: e :: rest => do
    let c ← escaped? e
    let (ps, rest) ← pieces? rest
    pure (.char c :: ps, rest)
  | c :: rest =>
    if c == '\\' || c.toNat < 0x20 then none
    else do
      let (ps, rest) ← pieces? rest
      pure (.char c :: ps, rest)

/-- Digits, at least one. -/
def digits? (cs : List Char) : Option (List Char × List Char) :=
  let ds := cs.takeWhile Char.isDigit
  if ds.isEmpty then none else some (ds, cs.dropWhile Char.isDigit)

/-- The whole part: a zero alone or digits that start with none. -/
def whole? : List Char → Option (List Char × List Char)
  | '0' :: rest => some (['0'], rest)
  | cs => digits? cs

def fraction? : List Char → Option (List Char × List Char)
  | '.' :: rest => (digits? rest).map fun (ds, rest) => ('.' :: ds, rest)
  | cs => some ([], cs)

def exponent? : List Char → Option (List Char × List Char)
  | e :: rest =>
    if e == 'e' || e == 'E' then
      match rest with
      | s :: more =>
        if s == '+' || s == '-' then (digits? more).map fun (ds, rest) => (e :: s :: ds, rest)
        else (digits? rest).map fun (ds, rest) => (e :: ds, rest)
      | [] => none
    else some ([], e :: rest)
  | [] => some ([], [])

/-- A number: sign, whole part, fraction and exponent. -/
def number? (cs : List Char) : Option (List Char × List Char) := do
  let (sign, cs) := match cs with
    | '-' :: rest => (['-'], rest)
    | _ => ([], cs)
  let (w, cs) ← whole? cs
  let (f, cs) ← fraction? cs
  let (e, cs) ← exponent? cs
  pure (sign ++ w ++ f ++ e, cs)

def first? : List Char → Option (Token × List Char)
  | '[' :: rest => some (.openArray, rest)
  | ']' :: rest => some (.closeArray, rest)
  | '\x7b' :: rest => some (.openObject, rest)
  | '\x7d' :: rest => some (.closeObject, rest)
  | ':' :: rest => some (.colon, rest)
  | ',' :: rest => some (.comma, rest)
  | 'n' :: 'u' :: 'l' :: 'l' :: rest => some (.null, rest)
  | 't' :: 'r' :: 'u' :: 'e' :: rest => some (.bool true, rest)
  | 'f' :: 'a' :: 'l' :: 's' :: 'e' :: rest => some (.bool false, rest)
  | '"' :: rest => (pieces? rest).map fun (ps, rest) => (.text ps, rest)
  | cs => (number? cs).map fun (ds, rest) => (.number ds, rest)

/-! ## A token takes something away -/

theorem pieces?_shorter {cs rest : List Char} {ps : List Piece} (h : pieces? cs = some (ps, rest)) :
    rest.length < cs.length := by
  fun_induction pieces? cs generalizing ps rest with
  | case1 => simp at h
  | case2 tail =>
    simp only [Option.some.injEq, Prod.mk.injEq] at h
    simp [← h.2]
  | case3 a b c d tail ih =>
    simp only [bind, Option.bind_eq_some_iff, Prod.exists, pure, Option.some.injEq,
      Prod.mk.injEq] at h
    obtain ⟨n, _, qs, left, hq, _, rfl⟩ := h
    have := ih hq
    simp only [List.length_cons]
    omega
  | case4 e tail _ ih =>
    simp only [bind, Option.bind_eq_some_iff, Prod.exists, pure, Option.some.injEq,
      Prod.mk.injEq] at h
    obtain ⟨c, _, qs, left, hq, _, rfl⟩ := h
    have := ih hq
    simp only [List.length_cons]
    omega
  | case5 => simp at h
  | case6 c tail _ _ _ _ ih =>
    simp only [bind, Option.bind_eq_some_iff, Prod.exists, pure, Option.some.injEq,
      Prod.mk.injEq] at h
    obtain ⟨qs, left, hq, _, rfl⟩ := h
    have := ih hq
    simp only [List.length_cons]
    omega

theorem digits?_shorter {cs ds rest : List Char} (h : digits? cs = some (ds, rest)) :
    rest.length < cs.length := by
  simp only [digits?, Option.ite_none_left_eq_some, Option.some.injEq, Prod.mk.injEq] at h
  obtain ⟨some_digit, rfl, rfl⟩ := h
  have split := congrArg List.length (List.takeWhile_append_dropWhile (p := Char.isDigit) (l := cs))
  have := List.length_pos_iff.2 (fun none_taken => some_digit (List.isEmpty_iff.2 none_taken))
  simp only [List.length_append] at split
  omega

theorem whole?_shorter {cs ds rest : List Char} (h : whole? cs = some (ds, rest)) :
    rest.length < cs.length := by
  rw [whole?.eq_def] at h
  split at h
  · simp only [Option.some.injEq, Prod.mk.injEq] at h
    simp [← h.2]
  · exact digits?_shorter h

theorem fraction?_not_longer {cs ds rest : List Char} (h : fraction? cs = some (ds, rest)) :
    rest.length ≤ cs.length := by
  rw [fraction?.eq_def] at h
  split at h
  · obtain ⟨⟨ds', left⟩, hd, hr⟩ := Option.map_eq_some_iff.1 h
    have := digits?_shorter hd
    simp only [Prod.mk.injEq] at hr
    simp only [← hr.2, List.length_cons]
    omega
  · simp only [Option.some.injEq, Prod.mk.injEq] at h
    simp [← h.2]

theorem exponent?_not_longer {cs ds rest : List Char} (h : exponent? cs = some (ds, rest)) :
    rest.length ≤ cs.length := by
  rw [exponent?.eq_def] at h
  split at h
  · split at h
    · split at h
      · split at h <;>
          obtain ⟨⟨ds', left⟩, hd, hr⟩ := Option.map_eq_some_iff.1 h <;>
          have := digits?_shorter hd <;>
          simp only [Prod.mk.injEq] at hr <;>
          simp only [← hr.2, List.length_cons] at * <;>
          omega
      · simp at h
    · simp only [Option.some.injEq, Prod.mk.injEq] at h
      simp [← h.2]
  · simp only [Option.some.injEq, Prod.mk.injEq] at h
    simp [← h.2]

theorem number?_shorter {cs ds rest : List Char} (h : number? cs = some (ds, rest)) :
    rest.length < cs.length := by
  simp only [number?, bind, Option.bind_eq_some_iff, Prod.exists, pure, Option.some.injEq,
    Prod.mk.injEq] at h
  obtain ⟨w, a, hw, f, b, hf, e, c, he, _, rfl⟩ := h
  have := whole?_shorter hw
  have := fraction?_not_longer hf
  have := exponent?_not_longer he
  have : (match cs with | '-' :: rest => (['-'], rest) | _ => ([], cs)).2.length ≤ cs.length := by
    split <;> simp
  omega

theorem first?_shorter {cs rest : List Char} {t : Token} (h : first? cs = some (t, rest)) :
    rest.length < cs.length := by
  rw [first?.eq_def] at h
  split at h
  case h_10 =>
    obtain ⟨⟨ps, left⟩, hp, hr⟩ := Option.map_eq_some_iff.1 h
    have := pieces?_shorter hp
    simp only [Prod.mk.injEq] at hr
    simp only [← hr.2, List.length_cons]
    omega
  case h_11 =>
    obtain ⟨⟨ds, left⟩, hd, hr⟩ := Option.map_eq_some_iff.1 h
    have := number?_shorter hd
    simp only [Prod.mk.injEq] at hr
    simpa only [← hr.2] using this
  all_goals
    simp only [Option.some.injEq, Prod.mk.injEq] at h
    simp only [← h.2, List.length_cons]
    omega

/-- All tokens of a text, in front of those already found in reverse order. -/
def collect (found : List Token) (cs : List Char) : Option (List Token) :=
  match _front : cs.dropWhile isBlank with
  | [] => some found.reverse
  | c :: rest =>
    match _token : first? (c :: rest) with
    | none => none
    | some (t, left) => collect (t :: found) left
termination_by cs.length
decreasing_by
  have := first?_shorter _token
  have := (List.dropWhile_suffix (l := cs) isBlank).length_le
  rw [_front] at this
  omega

def ofText? (cs : List Char) : Option (List Token) := collect [] cs

end Token

end FeedTraffic.Json
