import FeedTraffic.Yaml.Spelling
import FeedTraffic.Yaml.Tag

/-!
# Tokens of a YAML text

Indentation becomes tokens that open and close blocks.  A key without a mark of its own is known
as one only at the colon behind it, so every place where a key may start is kept until the line
is over, and the tokens of a key are put in there later.
-/

namespace FeedTraffic.Yaml

inductive Token where
  | directive (d : Directive)
  | documentStart
  | documentEnd
  | openBlockSequence
  | openBlockMapping
  | closeBlock
  | openSequence
  | closeSequence
  | openMapping
  | closeMapping
  /-- The hyphen in front of an item. -/
  | item
  | comma
  | key
  | value
  | alias (name : List Char)
  | anchor (name : List Char)
  | tag (t : WrittenTag)
  | scalar (text : List Char) (plain : Bool)
  deriving DecidableEq, Repr

structure KeyPlace where
  /-- Whether nothing but a key can stand there. -/
  required : Bool
  /-- The number of tokens in front of it. -/
  position : Nat
  mark : Mark
  deriving DecidableEq, Repr

structure Layout where
  cursor : Cursor
  /-- The tokens found, the last one first. -/
  found : List Token := []
  /-- The column of the innermost open block; -1 outside all blocks. -/
  indent : Int := -1
  /-- The columns of the blocks around it. -/
  outer : List Int := []
  /-- Whether a key may start here. -/
  keyAllowed : Bool := true
  /-- Where the key at hand may have started. -/
  place : Option KeyPlace := none
  /-- The same for the brackets around, the innermost first. -/
  places : List (Option KeyPlace) := []

namespace Layout

def inFlow (l : Layout) : Bool := !l.places.isEmpty

def column (l : Layout) : Nat := l.cursor.mark.column

def push (l : Layout) (t : Token) : Layout := { l with found := t :: l.found }

/-- Puts tokens behind the first `position` ones. -/
def pushAt (l : Layout) (position : Nat) (ts : List Token) : Layout :=
  let newer := l.found.length - position
  { l with found := l.found.take newer ++ ts.reverse ++ l.found.drop newer }

def skip (l : Layout) (n : Nat) : Layout := { l with cursor := l.cursor.skip n }

/-- Longest distance, in characters, between a key and its colon. -/
def maxKeyLength : Nat := 1024

/-- Whether the colon of a key can no longer come. -/
def isStale (l : Layout) (p : KeyPlace) : Bool :=
  p.mark.line < l.cursor.mark.line || p.mark.index + maxKeyLength < l.cursor.mark.index

/-- Forgets the places whose colon can no longer come; one that is required is missed. -/
def forgetStale (l : Layout) : Option Layout :=
  let stale (p : Option KeyPlace) : Bool := p.any l.isStale
  let missed (p : Option KeyPlace) : Bool := stale p && p.any (·.required)
  if missed l.place || l.places.any missed then none
  else
    let keep (p : Option KeyPlace) : Option KeyPlace := if stale p then none else p
    some { l with place := keep l.place, places := l.places.map keep }

/-- Gives the place at hand up; one that is required is missed. -/
def forgetPlace (l : Layout) : Option Layout :=
  if l.place.any (·.required) then none else some { l with place := none }

/-- Keeps this place if a key may start here. -/
def keepPlace (l : Layout) : Option Layout :=
  if l.keyAllowed then do
    let l ← l.forgetPlace
    let required := !l.inFlow && decide (l.indent = l.column)
    pure { l with place := some ⟨required, l.found.length, l.cursor.mark⟩ }
  else some l

/-- Opens a block at a column right of the open ones.  Its token goes behind the first
`position` ones. -/
def openBlock (l : Layout) (column position : Nat) (t : Token) : Layout :=
  if l.inFlow || (column : Int) ≤ l.indent then l
  else { l.pushAt position [t] with indent := column, outer := l.indent :: l.outer }

/-- Closes blocks one by one, as long as they are right of a column. -/
def closing (column : Int) : Int → List Int → Nat × Int × List Int
  | indent, outer =>
    if column < indent then
      match outer with
      | [] => (1, -1, [])
      | i :: rest =>
        let (n, indent, outer) := closing column i rest
        (n + 1, indent, outer)
    else (0, indent, outer)
termination_by _ outer => outer.length

/-- Closes the blocks right of a column. -/
def closeBlocks (l : Layout) (column : Int) : Layout :=
  if l.inFlow then l
  else
    let (n, indent, outer) := closing column l.indent l.outer
    { l with found := List.replicate n .closeBlock ++ l.found, indent, outer }

/-- Past blanks, comments and breaks.  Tabs count as blanks where no key can start. -/
def skipGap : Nat → Layout → Layout
  | 0, l => l
  | fuel + 1, l =>
    let l := if l.column = 0 ∧ l.cursor.rest.head? = some (Char.ofNat 0xFEFF) then l.skip 1 else l
    let tabs := l.inFlow || !l.keyAllowed
    let cur := l.cursor.skipWhile fun c => c == ' ' || (tabs && c == '\t')
    let cur := if cur.rest.head? = some '#' then cur.skipWhile (!isBreak ·) else cur
    if cur.rest.head?.any isBreak then
      skipGap fuel { l with cursor := cur.newline.2, keyAllowed := l.keyAllowed || !l.inFlow }
    else { l with cursor := cur }

def directive (l : Layout) : Option Layout := do
  let l ← (l.closeBlocks (-1)).forgetPlace
  let cur := l.cursor.skip 1
  let (d, rest) ← directive? cur.rest
  let cur := cur.skip (cur.rest.length - rest.length)
  let cur := cur.skipWhile isBlank
  let cur := if cur.rest.head? = some '#' then cur.skipWhile (!isBreak ·) else cur
  if !atLineEnd cur.rest then none
  pure { l.push (.directive d) with cursor := cur.newline.2, keyAllowed := false }

/-- Three hyphens or points at the start of a line. -/
def boundary (l : Layout) (t : Token) : Option Layout := do
  let l ← (l.closeBlocks (-1)).forgetPlace
  pure { (l.push t).skip 3 with keyAllowed := false }

def openFlow (l : Layout) (t : Token) : Option Layout := do
  let l ← l.keepPlace
  pure { (l.push t).skip 1 with place := none, places := l.place :: l.places, keyAllowed := true }

/-- A closing bracket or brace; one too many is left to the grammar. -/
def closeFlow (l : Layout) (t : Token) : Option Layout := do
  let l ← l.forgetPlace
  let l := match l.places with
    | [] => l
    | p :: ps => { l with place := p, places := ps }
  pure { (l.push t).skip 1 with keyAllowed := false }

def comma (l : Layout) : Option Layout := do
  let l ← l.forgetPlace
  pure { (l.push .comma).skip 1 with keyAllowed := true }

/-- A hyphen in front of an item.  In a block it has to be where a key could start. -/
def item (l : Layout) : Option Layout := do
  if !l.inFlow && !l.keyAllowed then none
  let l ← (l.openBlock l.column l.found.length .openBlockSequence).forgetPlace
  pure { (l.push .item).skip 1 with keyAllowed := true }

/-- A question mark in front of a key. -/
def key (l : Layout) : Option Layout := do
  if !l.inFlow && !l.keyAllowed then none
  let l ← (l.openBlock l.column l.found.length .openBlockMapping).forgetPlace
  pure { (l.push .key).skip 1 with keyAllowed := !l.inFlow }

/-- A colon.  If a key may have started on the line, it did. -/
def value (l : Layout) : Option Layout :=
  match l.place with
  | some p =>
    let l := (l.pushAt p.position [.key]).openBlock p.mark.column p.position .openBlockMapping
    some { (l.push .value).skip 1 with place := none, keyAllowed := false }
  | none =>
    if !l.inFlow && !l.keyAllowed then none
    else
      let l := l.openBlock l.column l.found.length .openBlockMapping
      some { (l.push .value).skip 1 with keyAllowed := !l.inFlow }

def name (l : Layout) (token : List Char → Token) : Option Layout := do
  let l ← l.keepPlace
  let (name, _) ← name? (l.cursor.rest.drop 1)
  pure { (l.push (token name)).skip (name.length + 1) with keyAllowed := false }

def tag (l : Layout) : Option Layout := do
  let l ← l.keepPlace
  let (t, rest) ← tag? l.inFlow l.cursor.rest
  pure { (l.push (.tag t)).skip (l.cursor.rest.length - rest.length) with keyAllowed := false }

def blockScalar (l : Layout) (literal : Bool) : Option Layout := do
  let l ← l.forgetPlace
  let s ← blockScalar? literal l.indent (l.cursor.skip 1)
  pure { l.push (.scalar s.text false) with cursor := s.after, keyAllowed := true }

def quotedScalar (l : Layout) (quote : Char) : Option Layout := do
  let l ← l.keepPlace
  let s ← quotedScalar? quote (l.cursor.skip 1)
  pure { l.push (.scalar s.text false) with cursor := s.after, keyAllowed := false }

def plainScalar (l : Layout) : Option Layout := do
  let l ← l.keepPlace
  let s ← plainScalar? l.inFlow (l.indent + 1).toNat l.cursor
  pure { l.push (.scalar s.text true) with cursor := s.after, keyAllowed := s.broken }

def isIndicator (c : Char) : Bool :=
  ['-', '?', ':', ',', '[', ']', '\x7b', '\x7d', '#', '&', '*', '!', '|', '>', '\'', '"', '%', '@',
    '\x60'].contains c

/-- Whether a plain scalar starts with this character in front of that rest. -/
def startsPlain (l : Layout) (c : Char) (rest : List Char) : Bool :=
  (!isIndicator c && !isBlank c) || (c == '-' && !rest.head?.any isBlank)
    || (!l.inFlow && (c == '?' || c == ':') && !atGap rest)

/-- The token at the cursor, where a character stands in front of a rest. -/
def next (l : Layout) (c : Char) (rest : List Char) : Option Layout :=
  let marksOff := l.inFlow || atGap rest
  if l.column = 0 ∧ c = '%' then l.directive
  else if l.column = 0 ∧ atBoundary (c :: rest) then
    l.boundary (if c = '-' then .documentStart else .documentEnd)
  else if c = '[' then l.openFlow .openSequence
  else if c = '\x7b' then l.openFlow .openMapping
  else if c = ']' then l.closeFlow .closeSequence
  else if c = '\x7d' then l.closeFlow .closeMapping
  else if c = ',' then l.comma
  else if c = '-' ∧ atGap rest then l.item
  else if c = '?' ∧ marksOff then l.key
  else if c = ':' ∧ marksOff then l.value
  else if c = '*' then l.name .alias
  else if c = '&' then l.name .anchor
  else if c = '!' then l.tag
  else if c = '|' ∧ !l.inFlow then l.blockScalar true
  else if c = '>' ∧ !l.inFlow then l.blockScalar false
  else if c = '\'' ∨ c = '"' then l.quotedScalar c
  else if l.startsPlain c rest then l.plainScalar
  else none

/-- All tokens from a state on, in the order of the text. -/
def run (l : Layout) : Option (List Token) :=
  (l.skipGap (l.cursor.rest.length + 1)).forgetStale.bind fun here =>
    let here := here.closeBlocks here.column
    match here.cursor.rest with
    | [] => (here.closeBlocks (-1)).forgetPlace.map (·.found.reverse)
    | c :: rest =>
      (here.next c rest).bind fun l' =>
        if _shorter : l'.cursor.rest.length < l.cursor.rest.length then run l' else none
termination_by l.cursor.rest.length

end Layout

def Token.ofText? (s : String) : Option (List Token) :=
  if s.toList.all isAllowed then Layout.run { cursor := { rest := s.toList } } else none

end FeedTraffic.Yaml
