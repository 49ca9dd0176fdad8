import FeedTraffic.Text.Hex
import FeedTraffic.Text.Utf8
import FeedTraffic.Yaml.Mark

/-!
# Names, tags and directives

A name marks an anchor or an alias.  A tag is a handle and a suffix; a directive line declares a
handle or the version of the language.
-/

namespace FeedTraffic.Yaml

def name? (cs : List Char) : Option (List Char × List Char) :=
  let name := cs.takeWhile isNameChar
  let rest := cs.dropWhile isNameChar
  let closers := ['?', ':', ',', ']', '\x7d', '%', '@', '\x60']
  let ends := atGap rest || rest.head?.any (closers.contains ·)
  if name.isEmpty || !ends then none else some (name, rest)

/-- A tag handle: an exclamation mark, a name and perhaps a second mark.  In a directive only the
first mark alone may go without the second. -/
def handle? (inDirective : Bool) : List Char → Option (List Char × List Char)
  | '!' :: cs =>
    let name := cs.takeWhile isNameChar
    match cs.dropWhile isNameChar with
    | '!' :: rest => some ('!' :: (name ++ ['!']), rest)
    | rest => if inDirective && !name.isEmpty then none else some ('!' :: name, rest)
  | _ => none

/-- A character of a tag that stands for itself; brackets and commas only in some places. -/
def isTagChar (wide : Bool) (c : Char) : Bool :=
  isNameChar c || [';', '/', '?', ':', '@', '&', '=', '+', '$', '.', '!', '~', '*', '\'', '(',
    ')'].contains c || (wide && [',', '[', ']'].contains c)

/-- Bytes written as a percent sign and two digits, `n` of them. -/
def escapedBytes? : Nat → List Char → Option (List UInt8 × List Char)
  | 0, cs => some ([], cs)
  | n + 1, '%' :: a :: b :: cs => do
    let byte ← Text.Hex.number? [a, b]
    let (bytes, rest) ← escapedBytes? n cs
    pure (byte.toUInt8 :: bytes, rest)
  | _, _ => none

/-- One character written in escaped bytes. -/
def escapedChar? (cs : List Char) : Option (Char × List Char) := do
  let (first, _) ← escapedBytes? 1 cs
  let width ← match first with
    | [b] =>
      if b < 0x80 then some 1
      else if 0xC0 ≤ b && b < 0xE0 then some 2
      else if 0xE0 ≤ b && b < 0xF0 then some 3
      else if 0xF0 ≤ b && b < 0xF8 then some 4
      else none
    | _ => none
  let (bytes, rest) ← escapedBytes? width cs
  match Text.Utf8.decode bytes with
  | [c] => pure (c, rest)
  | _ => none

/-- The characters of a tag as far as they go. -/
def tagText (wide : Bool) : Nat → List Char → Option (List Char × List Char)
  | 0, cs => some ([], cs)
  | fuel + 1, cs =>
    match cs with
    | '%' :: _ => do
      let (c, rest) ← escapedChar? cs
      let (text, rest) ← tagText wide fuel rest
      pure (c :: text, rest)
    | c :: rest =>
      if isTagChar wide c then do
        let (text, rest) ← tagText wide fuel rest
        pure (c :: text, rest)
      else some ([], cs)
    | [] => some ([], cs)

structure WrittenTag where
  /-- Empty when the suffix is the whole tag. -/
  handle : List Char
  suffix : List Char
  deriving DecidableEq, Repr

/-- A tag at its exclamation mark.  It ends at a gap, or at a comma inside brackets. -/
def tag? (inFlow : Bool) (cs : List Char) : Option (WrittenTag × List Char) := do
  let (tag, rest) ←
    match cs with
    | '!' :: '<' :: more => do
      let (suffix, rest) ← tagText true more.length more
      match rest with
      | '>' :: rest => if suffix.isEmpty then none else pure (WrittenTag.mk [] suffix, rest)
      | _ => none
    | _ => do
      let (handle, more) ← handle? false cs
      let (suffix, rest) ← tagText false more.length more
      if 1 < handle.length && handle.getLast? == some '!' then
        if suffix.isEmpty then none else pure (WrittenTag.mk handle suffix, rest)
      else
        let suffix := handle.drop 1 ++ suffix
        if suffix.isEmpty then pure (WrittenTag.mk [] ['!'], rest)
        else pure (WrittenTag.mk ['!'] suffix, rest)
  if atGap rest || (inFlow && rest.head? == some ',') then pure (tag, rest) else none

inductive Directive where
  | version (major minor : Nat)
  /-- A handle and what it stands for. -/
  | tag (handle stem : List Char)
  deriving DecidableEq, Repr

/-- A number of a version, of at most nine digits. -/
def versionNumber? (cs : List Char) : Option (Nat × List Char) :=
  let ds := cs.takeWhile Char.isDigit
  if ds.isEmpty || 9 < ds.length then none
  else some (Nat.ofDigitChars 10 ds 0, cs.dropWhile Char.isDigit)

/-- A directive behind its percent sign, with what follows on its line. -/
def directive? (cs : List Char) : Option (Directive × List Char) := do
  let name := cs.takeWhile isNameChar
  let rest := cs.dropWhile isNameChar
  if !atGap rest then none
  let rest := rest.dropWhile isBlank
  if name = ['Y', 'A', 'M', 'L'] then
    let (major, rest) ← versionNumber? rest
    match rest with
    | '.' :: rest => do
      let (minor, rest) ← versionNumber? rest
      pure (.version major minor, rest)
    | _ => none
  else if name = ['T', 'A', 'G'] then
    let (handle, rest) ← handle? true rest
    if !rest.head?.any isBlank then none
    let rest := rest.dropWhile isBlank
    let (stem, rest) ← tagText true rest.length rest
    if stem.isEmpty || !atGap rest then none
    pure (.tag handle stem, rest)
  else none

end FeedTraffic.Yaml
