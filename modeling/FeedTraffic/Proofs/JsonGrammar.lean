import FeedTraffic.Json.Basic

/-!
# The texts of a JSON value

A value has many texts.  Blanks may stand before and after every token, a character of a string
may stand for itself or be escaped, by a letter or by its number, and the digits of a number may
be of either case.  The rules here give all of them, and say nothing about how they are read.
-/

namespace FeedTraffic.Json

/-! ## Blanks and numbers -/

def Blanks (ws : List Char) : Prop := ∀ c ∈ ws, c = ' ' ∨ c = '\n' ∨ c = '\t' ∨ c = '\r'

structure Digits (ds : List Char) : Prop where
  filled : ds ≠ []
  digits : ∀ d ∈ ds, d.isDigit = true

/-- The whole part of a number: a zero alone, or digits that start with none. -/
inductive Whole : List Char → Prop where
  | zero : Whole ['0']
  | digits {d : Char} {ds : List Char} (other : d ≠ '0') (h : Digits (d :: ds)) : Whole (d :: ds)

inductive Fraction : List Char → Prop where
  | absent : Fraction []
  | point {ds : List Char} (h : Digits ds) : Fraction ('.' :: ds)

inductive Exponent : List Char → Prop where
  | absent : Exponent []
  | unsigned {e : Char} {ds : List Char} (mark : e = 'e' ∨ e = 'E') (h : Digits ds) :
      Exponent (e :: ds)
  | signed {e s : Char} {ds : List Char} (mark : e = 'e' ∨ e = 'E') (sign : s = '+' ∨ s = '-')
      (h : Digits ds) : Exponent (e :: s :: ds)

inductive IsNumber : List Char → Prop where
  | positive {w f e : List Char} (hw : Whole w) (hf : Fraction f) (he : Exponent e) :
      IsNumber (w ++ (f ++ e))
  | negative {w f e : List Char} (hw : Whole w) (hf : Fraction f) (he : Exponent e) :
      IsNumber ('-' :: (w ++ (f ++ e)))

/-! ## Strings -/

inductive HexDigit : Char → Nat → Prop where
  | lower {n : Nat} (small : n < 16) : HexDigit (Nat.digitChar n) n
  | upper {n : Nat} (small : n < 16) : HexDigit (Nat.digitChar n).toUpper n

/-- Characters and the letters that stand for them behind a backslash. -/
def letters : List (Char × Char) :=
  [('"', '"'), ('\\', '\\'), ('/', '/'), ('\x08', 'b'), ('\x0c', 'f'), ('\n', 'n'), ('\r', 'r'),
   ('\t', 't')]

inductive IsPiece : Piece → List Char → Prop where
  | literal {c : Char} (no_quote : c ≠ '"') (no_backslash : c ≠ '\\') (no_control : 32 ≤ c.toNat) :
      IsPiece (.char c) [c]
  | letter {c l : Char} (h : (c, l) ∈ letters) : IsPiece (.char c) ['\\', l]
  | number {a b c d : Char} {i j k l : Nat} (ha : HexDigit a i) (hb : HexDigit b j)
      (hc : HexDigit c k) (hd : HexDigit d l) :
      IsPiece (.unit (((i * 16 + j) * 16 + k) * 16 + l)) ['\\', 'u', a, b, c, d]

/-- The texts of the pieces of a string, without quotes. -/
inductive ArePieces : List Piece → List Char → Prop where
  | nil : ArePieces [] []
  | cons {p : Piece} {ps : List Piece} {cs ds : List Char} (first : IsPiece p cs)
      (rest : ArePieces ps ds) : ArePieces (p :: ps) (cs ++ ds)

/-- The pieces that a text can be made of.  A character is a piece of its own or is given by its
number, in two halves of a pair where sixteen bits are not enough. -/
inductive Spells : List Char → List Piece → Prop where
  | nil : Spells [] []
  | char {c : Char} {cs : List Char} {ps : List Piece} (rest : Spells cs ps) :
      Spells (c :: cs) (.char c :: ps)
  | number {c : Char} {cs : List Char} {ps : List Piece} (narrow : c.toNat < 0x10000)
      (rest : Spells cs ps) : Spells (c :: cs) (.unit c.toNat :: ps)
  | pair {c : Char} {cs : List Char} {ps : List Piece} (wide : 0x10000 ≤ c.toNat)
      (rest : Spells cs ps) :
      Spells (c :: cs)
        (.unit (0xD800 + (c.toNat - 0x10000) / 0x400) ::
          .unit (0xDC00 + (c.toNat - 0x10000) % 0x400) :: ps)

/-! ## Values -/

mutual

/-- The texts of a value, with blanks in front of every token. -/
inductive IsText : Json → List Char → Prop where
  | null {ws : List Char} (blanks : Blanks ws) : IsText .null (ws ++ ['n', 'u', 'l', 'l'])
  | true {ws : List Char} (blanks : Blanks ws) : IsText (.bool true) (ws ++ ['t', 'r', 'u', 'e'])
  | false {ws : List Char} (blanks : Blanks ws) :
      IsText (.bool false) (ws ++ ['f', 'a', 'l', 's', 'e'])
  | number {ws ds : List Char} (blanks : Blanks ws) (h : IsNumber ds) :
      IsText (.number ds) (ws ++ ds)
  | text {ws cs : List Char} {ps : List Piece} (blanks : Blanks ws) (h : ArePieces ps cs) :
      IsText (.text ps) (ws ++ '"' :: (cs ++ ['"']))
  | noItems {ws last : List Char} (blanks : Blanks ws) (closing : Blanks last) :
      IsText (.array []) (ws ++ '[' :: (last ++ [']']))
  | array {ws cs ds last : List Char} {v : Json} {vs : List Json} (blanks : Blanks ws)
      (first : IsText v cs) (others : FurtherItems vs ds) (closing : Blanks last) :
      IsText (.array (v :: vs)) (ws ++ '[' :: (cs ++ (ds ++ (last ++ [']']))))
  | noMembers {ws last : List Char} (blanks : Blanks ws) (closing : Blanks last) :
      IsText (.object []) (ws ++ '\x7b' :: (last ++ ['\x7d']))
  | object {ws cs ds last : List Char} {m : List Piece × Json} {ms : List (List Piece × Json)}
      (blanks : Blanks ws) (first : IsMember m cs) (others : FurtherMembers ms ds)
      (closing : Blanks last) :
      IsText (.object (m :: ms)) (ws ++ '\x7b' :: (cs ++ (ds ++ (last ++ ['\x7d']))))

/-- The texts of items behind the first, each behind a comma. -/
inductive FurtherItems : List Json → List Char → Prop where
  | none : FurtherItems [] []
  | more {ws cs ds : List Char} {v : Json} {vs : List Json} (blanks : Blanks ws)
      (item : IsText v cs) (others : FurtherItems vs ds) :
      FurtherItems (v :: vs) (ws ++ ',' :: (cs ++ ds))

/-- The texts of a member: its key, a colon and its value. -/
inductive IsMember : List Piece × Json → List Char → Prop where
  | mk {ws cs colon ds : List Char} {k : List Piece} {v : Json} (blanks : Blanks ws)
      (key : ArePieces k cs) (between : Blanks colon) (value : IsText v ds) :
      IsMember (k, v) (ws ++ '"' :: (cs ++ '"' :: (colon ++ ':' :: ds)))

/-- The texts of members behind the first, each behind a comma. -/
inductive FurtherMembers : List (List Piece × Json) → List Char → Prop where
  | none : FurtherMembers [] []
  | more {ws cs ds : List Char} {m : List Piece × Json} {ms : List (List Piece × Json)}
      (blanks : Blanks ws) (member : IsMember m cs) (others : FurtherMembers ms ds) :
      FurtherMembers (m :: ms) (ws ++ ',' :: (cs ++ ds))

end

/-- The whole texts of a value: blanks may follow it too. -/
def IsDocument (v : Json) (s : String) : Prop :=
  ∃ cs ws, IsText v cs ∧ Blanks ws ∧ s.toList = cs ++ ws

end FeedTraffic.Json
