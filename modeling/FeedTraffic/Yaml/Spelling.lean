import FeedTraffic.Text.Hex
import FeedTraffic.Yaml.Mark

/-!
# How scalars are spelled

A scalar is plain, in single or double quotes, or a block.  In all but a literal block a line
break folds into a space, and of several breaks the first is left out; blanks around a break do
not count.
-/

namespace FeedTraffic.Yaml

/-- Blanks and breaks between two words of a scalar. -/
structure Gap where
  /-- The blanks in front of the first break. -/
  blanks : List Char := []
  /-- Whether there is a break. -/
  broken : Bool := false
  /-- The first break, unless it is escaped. -/
  first : Option Char := none
  more : List Char := []
  deriving DecidableEq, Repr

namespace Gap

def addBreak (g : Gap) (c : Char) : Gap :=
  if g.broken then { g with more := g.more ++ [c] }
  else { g with blanks := [], broken := true, first := some c }

def addBlank (g : Gap) (c : Char) : Gap :=
  if g.broken then g else { g with blanks := g.blanks ++ [c] }

/-- What stands for a gap in the scalar. -/
def folded (g : Gap) : List Char :=
  if !g.broken then g.blanks
  else if g.first = some '\n' then (if g.more.isEmpty then [' '] else g.more)
  else g.first.toList ++ g.more

/-- Reads a gap on.  Behind a break a tab is refused in front of column `limit`. -/
def read (limit : Nat) : List Char → Mark → Gap → Option (Gap × Cursor)
  | '\r' :: '\n' :: rest, m, g => read limit rest (m.newline 2) (g.addBreak '\n')
  | c :: rest, m, g =>
    if isBreak c then read limit rest (m.newline 1) (g.addBreak (breakText c))
    else if isBlank c then
      if g.broken && m.column < limit && c == '\t' then none
      else read limit rest (m.skip 1) (g.addBlank c)
    else some (g, ⟨c :: rest, m⟩)
  | [], m, g => some (g, ⟨[], m⟩)

end Gap

/-! ## Plain scalars -/

/-- The marks that end a plain scalar inside brackets. -/
def isFlowMark (c : Char) : Bool :=
  c == ',' || c == '[' || c == ']' || c == '\x7b' || c == '\x7d'

/-- A word of a plain scalar and what follows it.  Inside brackets a colon in front of a mark is
refused. -/
def plainWord (inFlow : Bool) : List Char → Option (List Char × List Char)
  | [] => some ([], [])
  | c :: rest =>
    if isBlank c || isBreak c then some ([], c :: rest)
    else if inFlow && c == ':' && rest.head?.any (fun d => isFlowMark d || d == '?') then none
    else if (c == ':' && atGap rest) || (inFlow && isFlowMark c) then some ([], c :: rest)
    else (plainWord inFlow rest).map fun (word, left) => (c :: word, left)

structure Spelled where
  text : List Char
  /-- Whether line breaks follow the last word. -/
  broken : Bool := false
  after : Cursor

/-- A plain scalar behind `text` and a gap.  Lines that are not indented to `indent` do not
belong to it. -/
def plainFrom (inFlow : Bool) (indent : Nat) : Nat → List Char → Gap → Cursor → Option Spelled
  | 0, _, _, _ => none
  | fuel + 1, text, gap, cur =>
    if (cur.mark.column = 0 ∧ atBoundary cur.rest) ∨ cur.rest.head? = some '#' then
      some ⟨text, gap.broken, cur⟩
    else do
      let (word, rest) ← plainWord inFlow cur.rest
      let here : Cursor := ⟨rest, cur.mark.skip word.length⟩
      let text := if word.isEmpty then text else text ++ gap.folded ++ word
      let broken := word.isEmpty && gap.broken
      match rest with
      | [] => pure ⟨text, broken, here⟩
      | c :: _ =>
        if isBlank c || isBreak c then
          let (gap, next) ← Gap.read indent rest here.mark {}
          if !inFlow && next.mark.column < indent then pure ⟨text, gap.broken, next⟩
          else plainFrom inFlow indent fuel text gap next
        else pure ⟨text, broken, here⟩

def plainScalar? (inFlow : Bool) (indent : Nat) (cur : Cursor) : Option Spelled :=
  plainFrom inFlow indent (cur.rest.length + 1) [] {} cur

/-! ## Quoted scalars -/

def escaped? (c : Char) : Option Char :=
  match c with
  | '0' => some (Char.ofNat 0)
  | 'a' => some '\x07'
  | 'b' => some '\x08'
  | 't' => some '\t'
  | '\t' => some '\t'
  | 'n' => some '\n'
  | 'v' => some '\x0b'
  | 'f' => some '\x0c'
  | 'r' => some '\r'
  | 'e' => some '\x1b'
  | ' ' => some ' '
  | '"' => some '"'
  | '/' => some '/'
  | '\\' => some '\\'
  | 'N' => some '\x85'
  | '_' => some '\xa0'
  | 'L' => some (Char.ofNat 0x2028)
  | 'P' => some (Char.ofNat 0x2029)
  | _ => none

/-- The character whose number has these digits. -/
def numbered? (digits : List Char) : Option Char :=
  (Text.Hex.number? digits).bind fun n => if n.isValidChar then some (Char.ofNat n) else none

/-- A word inside quotes, whether an escaped break ends it, and what follows. -/
structure QuotedWord where
  text : List Char
  escapedBreak : Bool
  after : Cursor

def QuotedWord.cons (c : Char) (w : QuotedWord) : QuotedWord := { w with text := c :: w.text }

/-- A word inside single quotes; two quotes in a row are one. -/
def singleWord : List Char → Mark → Option QuotedWord
  | '\'' :: '\'' :: rest, m => (singleWord rest (m.skip 2)).map (.cons '\'')
  | c :: rest, m =>
    if c == '\'' || isBlank c || isBreak c then some ⟨[], false, ⟨c :: rest, m⟩⟩
    else (singleWord rest (m.skip 1)).map (.cons c)
  | [], m => some ⟨[], false, ⟨[], m⟩⟩

/-- A word inside double quotes, its escapes resolved. -/
def doubleWord : List Char → Mark → Option QuotedWord
  | '\\' :: '\r' :: '\n' :: rest, m => some ⟨[], true, ⟨rest, (m.skip 1).newline 2⟩⟩
  | '\\' :: 'x' :: a :: b :: rest, m => do
    let c ← numbered? [a, b]
    (doubleWord rest (m.skip 4)).map (.cons c)
  | '\\' :: 'u' :: a :: b :: c :: d :: rest, m => do
    let x ← numbered? [a, b, c, d]
    (doubleWord rest (m.skip 6)).map (.cons x)
  | '\\' :: 'U' :: a :: b :: c :: d :: e :: f :: g :: h :: rest, m => do
    let x ← numbered? [a, b, c, d, e, f, g, h]
    (doubleWord rest (m.skip 10)).map (.cons x)
  | '\\' :: c :: rest, m =>
    if isBreak c then some ⟨[], true, ⟨rest, (m.skip 1).newline 1⟩⟩
    else do
      let x ← escaped? c
      (doubleWord rest (m.skip 2)).map (.cons x)
  | c :: rest, m =>
    if c == '\\' then none
    else if c == '"' || isBlank c || isBreak c then some ⟨[], false, ⟨c :: rest, m⟩⟩
    else (doubleWord rest (m.skip 1)).map (.cons c)
  | [], m => some ⟨[], false, ⟨[], m⟩⟩

/-- A quoted scalar behind `text`, up to and with its closing quote. -/
def quotedFrom (quote : Char) : Nat → List Char → Cursor → Option Spelled
  | 0, _, _ => none
  | fuel + 1, text, cur =>
    if (cur.mark.column = 0 ∧ atBoundary cur.rest) ∨ cur.rest.isEmpty then none
    else do
      let word ← if quote = '"' then doubleWord cur.rest cur.mark else singleWord cur.rest cur.mark
      let text := text ++ word.text
      if word.after.rest.head? = some quote then pure ⟨text, false, word.after.skip 1⟩
      else
        let (gap, next) ← Gap.read 0 word.after.rest word.after.mark { broken := word.escapedBreak }
        quotedFrom quote fuel (text ++ gap.folded) next

def quotedScalar? (quote : Char) (cur : Cursor) : Option Spelled :=
  quotedFrom quote (cur.rest.length + 1) [] cur

/-! ## Block scalars -/

/-- What becomes of the breaks at the end of a block. -/
inductive Chomping where
  | strip
  | clip
  | keep
  deriving DecidableEq, Repr

structure BlockHeader where
  chomping : Chomping := .clip
  /-- The indentation relative to the surroundings, if it is given. -/
  increment : Option Nat := none
  deriving DecidableEq, Repr

def chomping? : Char → Option Chomping
  | '+' => some .keep
  | '-' => some .strip
  | _ => none

/-- A digit from one to nine; zero is refused. -/
def increment? (c : Char) : Option (Option Nat) :=
  if c == '0' then none else some (some (c.toNat - '0'.toNat))

/-- The header of a block: chomping and indentation in either order. -/
def blockHeader? (cur : Cursor) : Option (BlockHeader × Cursor) :=
  match cur.rest with
  | a :: rest =>
    match chomping? a with
    | some ch =>
      match rest with
      | d :: _ =>
        if d.isDigit then (increment? d).map fun i => (⟨ch, i⟩, cur.skip 2)
        else some (⟨ch, none⟩, cur.skip 1)
      | [] => some (⟨ch, none⟩, cur.skip 1)
    | none =>
      if a.isDigit then
        (increment? a).map fun i =>
          match rest.head?.bind chomping? with
          | some ch => (⟨ch, i⟩, cur.skip 2)
          | none => (⟨.clip, i⟩, cur.skip 1)
      else some ({}, cur)
  | [] => some ({}, cur)

/-- Empty lines in front of a line of a block: their breaks, the widest column that was reached,
and the cursor.  While the indentation is not known it is zero. -/
def emptyLines (indent : Nat) : List Char → Mark → Nat → List Char →
    Option (List Char × Nat × Cursor)
  | [], m, widest, breaks => some (breaks, max widest m.column, ⟨[], m⟩)
  | '\r' :: '\n' :: rest, m, widest, breaks =>
    emptyLines indent rest (m.newline 2) (max widest m.column) (breaks ++ ['\n'])
  | c :: rest, m, widest, breaks =>
    let inside := indent = 0 ∨ m.column < indent
    if c == ' ' ∧ inside then emptyLines indent rest (m.skip 1) widest breaks
    else if c == '\t' ∧ inside then none
    else if isBreak c then
      emptyLines indent rest (m.newline 1) (max widest m.column) (breaks ++ [breakText c])
    else some (breaks, max widest m.column, ⟨c :: rest, m⟩)

/-- Empty lines with the indentation that they settle. -/
def leadingLines (parent : Int) (indent : Nat) (cur : Cursor) :
    Option (List Char × Nat × Cursor) := do
  let (breaks, widest, cur) ← emptyLines indent cur.rest cur.mark 0 []
  let found := if indent = 0 then max widest (max (parent + 1).toNat 1) else indent
  pure (breaks, found, cur)

structure BlockLines where
  text : List Char := []
  /-- The break behind the last line. -/
  last : List Char := []
  /-- Whether the last line starts with a blank. -/
  blank : Bool := false
  /-- The breaks of empty lines behind that. -/
  more : List Char

def blockLines (literal : Bool) (parent : Int) (indent : Nat) :
    Nat → BlockLines → Cursor → Option (BlockLines × Cursor)
  | 0, _, _ => none
  | fuel + 1, b, cur =>
    if cur.mark.column ≠ indent ∨ cur.rest.isEmpty then some (b, cur)
    else do
      let blank := cur.rest.head?.any isBlank
      let join :=
        if !literal && b.last.head? == some '\n' && !b.blank && !blank then
          if b.more.isEmpty then [' '] else []
        else b.last
      let line := cur.rest.takeWhile (!isBreak ·)
      let (last, next) := (cur.skip line.length).newline
      let (more, _, next) ← leadingLines parent indent next
      blockLines literal parent indent fuel ⟨b.text ++ join ++ b.more ++ line, last, blank, more⟩
        next

/-- A block scalar behind its bar or angle; `parent` is the indentation of its surroundings. -/
def blockScalar? (literal : Bool) (parent : Int) (cur : Cursor) : Option Spelled := do
  let (header, cur) ← blockHeader? cur
  let cur := cur.skipWhile isBlank
  let cur := if cur.rest.head? = some '#' then cur.skipWhile (!isBreak ·) else cur
  if !atLineEnd cur.rest then none
  let (_, cur) := cur.newline
  let indent := match header.increment with
    | none => 0
    | some n => (max parent 0).toNat + n
  let (breaks, indent, cur) ← leadingLines parent indent cur
  let (b, cur) ← blockLines literal parent indent (cur.rest.length + 1) { more := breaks } cur
  let tail := match header.chomping with
    | .strip => []
    | .clip => b.last
    | .keep => b.last ++ b.more
  pure ⟨b.text ++ tail, false, cur⟩

end FeedTraffic.Yaml
