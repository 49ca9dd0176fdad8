/-!
# Characters and positions of a YAML text

Which characters may stand in a text, which of them are blanks and line breaks, and how a position
moves over them.
-/

namespace FeedTraffic.Yaml

/-- A character that may stand in a text. -/
def isAllowed (c : Char) : Bool :=
  let n := c.toNat
  n == 0x09 || n == 0x0A || n == 0x0D || (0x20 ≤ n && n ≤ 0x7E) || n == 0x85
    || (0xA0 ≤ n && n ≤ 0xFFFD) || 0x10000 ≤ n

def isBlank (c : Char) : Bool := c == ' ' || c == '\t'

/-- A line feed, carriage return, next line, line separator or paragraph separator. -/
def isBreak (c : Char) : Bool :=
  c == '\n' || c == '\r' || c.toNat == 0x85 || c.toNat == 0x2028 || c.toNat == 0x2029

/-- A break as it counts in a scalar: only the two separators stay what they are. -/
def breakText (c : Char) : Char :=
  if c.toNat == 0x2028 || c.toNat == 0x2029 then c else '\n'

/-- A letter or digit of ASCII, an underscore or a hyphen. -/
def isNameChar (c : Char) : Bool := c.isAlphanum || c == '_' || c == '-'

/-- Whether a word ends here: at a blank, at a break or at the end of the text. -/
def atGap (cs : List Char) : Bool := cs.head?.all fun c => isBlank c || isBreak c

def atLineEnd (cs : List Char) : Bool := cs.head?.all isBreak

/-- Three hyphens or three points and a gap, which at the start of a line bound a document. -/
def atBoundary : List Char → Bool
  | '-' :: '-' :: '-' :: rest => atGap rest
  | '.' :: '.' :: '.' :: rest => atGap rest
  | _ => false

structure Mark where
  index : Nat := 0
  line : Nat := 0
  column : Nat := 0
  deriving DecidableEq, Repr

namespace Mark

/-- Past `n` characters of a line. -/
def skip (m : Mark) (n : Nat) : Mark := { m with index := m.index + n, column := m.column + n }

def newline (m : Mark) (n : Nat) : Mark := ⟨m.index + n, m.line + 1, 0⟩

end Mark

structure Cursor where
  rest : List Char
  mark : Mark := {}
  deriving DecidableEq, Repr

namespace Cursor

def skip (c : Cursor) (n : Nat) : Cursor := ⟨c.rest.drop n, c.mark.skip n⟩

/-- Past the characters of this line that `p` holds of. -/
def skipWhile (c : Cursor) (p : Char → Bool) : Cursor :=
  c.skip (c.rest.takeWhile p).length

/-- Past the line break, if one is here, and that break. -/
def newline (c : Cursor) : List Char × Cursor :=
  match c.rest with
  | '\r' :: '\n' :: rest => (['\n'], ⟨rest, c.mark.newline 2⟩)
  | x :: rest => if isBreak x then ([breakText x], ⟨rest, c.mark.newline 1⟩) else ([], c)
  | [] => ([], c)

end Cursor

end FeedTraffic.Yaml
