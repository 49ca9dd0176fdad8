import FeedTraffic.Number.Whole
import FeedTraffic.Settings.Value
import FeedTraffic.Text.Blank
import FeedTraffic.Text.Hex

/-!
# Settings from environment variables

The name of a variable that starts with the mark is a path: two underscores or a point go one
level down, and letters count in lower case.  The value is a literal: `true`, `false`, a
dictionary in braces, a list in brackets, a text in double quotes, a character in single quotes,
a number, or any other text.  A value that does not read as one literal to its end is the text as
it stands.
-/

namespace FeedTraffic.Settings.Variable

open FeedTraffic.Number

/-! ## Names -/

/-- What the names of variables start with, in any case. -/
def mark : List Char := "feedload__".toList

/-- Every two underscores in a row become a point. -/
def levels : List Char → List Char
  | '_' :: '_' :: cs => '.' :: levels cs
  | c :: cs => c :: levels cs
  | [] => []

def parts : List Char → List (List Char)
  | [] => [[]]
  | c :: cs =>
    if c = '.' then [] :: parts cs
    else match parts cs with
      | p :: ps => (c :: p) :: ps
      | [] => [[c]]

/-- The path that a name stands for, if it has the mark and no part of the path is empty. -/
def path? (name : String) : Option (List String) :=
  let cs := (Text.trimList name.toList).map Char.toLower
  if mark.isPrefixOf cs then
    let ps := parts (levels (cs.drop mark.length))
    if ps.any List.isEmpty then none else some (ps.map String.ofList)
  else none

/-! ## Literals -/

def isSeparator (c : Char) : Bool :=
  c == ',' || c == '\x7b' || c == '\x7d' || c == '[' || c == ']'

def isKeyChar (c : Char) : Bool := c.isAlphanum || c == '_' || c == '-'

def skipBlanks (cs : List Char) : List Char := cs.dropWhile Text.isAsciiBlank

/-- A value without a mark of its own: a number with a point, a whole number, or a text. -/
def plain (cs : List Char) : Scalar :=
  let whole := match Whole.unsigned? (2 ^ 64 - 1) cs with
    | some n => .unsigned n
    | none =>
      match Whole.signed? (2 ^ 63 - 1) cs with
      | some i => .signed i
      | none => .text (String.ofList cs)
  if cs.contains '.' then
    match Binary64.ofText? (String.ofList cs) with
    | some x => .float x
    | none => whole
  else whole

/-- What stands between double quotes, escapes still in it, and what follows the closing one. -/
def quotedSpan : List Char → Option (List Char × List Char)
  | [] => none
  | '"' :: rest => some ([], rest)
  | '\\' :: c :: rest => (quotedSpan rest).map fun (inner, rest) => ('\\' :: c :: inner, rest)
  | c :: rest => (quotedSpan rest).map fun (inner, rest) => (c :: inner, rest)

/-- A character by its number, if there is one. -/
def charOfNumber? (n : Nat) : Option Char :=
  if n.isValidChar then some (Char.ofNat n) else none

/-- The character behind a backslash, where it is one letter. -/
def escaped? (c : Char) : Option Char :=
  match c with
  | 'b' => some '\x08'
  | 'f' => some '\x0c'
  | 'n' => some '\n'
  | 'r' => some '\r'
  | 't' => some '\t'
  | '"' => some '"'
  | '\\' => some '\\'
  | _ => none

/-- A text with its escapes resolved; control characters other than the tab are refused. -/
def unescape : List Char → Option (List Char)
  | [] => some []
  | '\\' :: 'u' :: a :: b :: c :: d :: rest => do
    let x ← charOfNumber? (← Text.Hex.number? [a, b, c, d])
    pure (x :: (← unescape rest))
  | '\\' :: 'U' :: a :: b :: c :: d :: e :: f :: g :: h :: rest => do
    let x ← charOfNumber? (← Text.Hex.number? [a, b, c, d, e, f, g, h])
    pure (x :: (← unescape rest))
  | '\\' :: c :: rest => do
    let x ← escaped? c
    pure (x :: (← unescape rest))
  | c :: rest =>
    if c == '\\' || (c.toNat < 0x20 && c != '\t') || c.toNat == 0x7F then none
    else do pure (c :: (← unescape rest))

def quoted? : List Char → Option (List Char × List Char)
  | '"' :: cs => do
    let (inner, rest) ← quotedSpan cs
    pure (← unescape inner, rest)
  | _ => none

/-- The key of an entry, up to and without its equals sign. -/
def key? (cs : List Char) : Option (String × List Char) := do
  let cs := skipBlanks cs
  let (key, rest) ←
    match cs with
    | '"' :: _ => quoted? cs
    | _ =>
      let key := cs.takeWhile isKeyChar
      if key.isEmpty then none else some (key, cs.dropWhile isKeyChar)
  match skipBlanks rest with
  | '=' :: rest => pure (String.ofList key, rest)
  | _ => none

mutual

/-- A literal with blanks around it, and what follows.  `fuel` bounds the steps. -/
def literal? (fuel : Nat) (cs : List Char) : Option (Value × List Char) :=
  match fuel with
  | 0 => none
  | fuel + 1 =>
    let done (s : Scalar) (rest : List Char) := some (Value.scalar .environment s, skipBlanks rest)
    match skipBlanks cs with
    | 't' :: 'r' :: 'u' :: 'e' :: rest => done (.bool true) rest
    | 'f' :: 'a' :: 'l' :: 's' :: 'e' :: rest => done (.bool false) rest
    | '\x7b' :: rest => do
      let (es, rest) ← entries? fuel [] rest
      pure (.ofEntries .environment es, skipBlanks rest)
    | '[' :: rest => do
      let (items, rest) ← items? fuel [] rest
      pure (.list .environment items, skipBlanks rest)
    | '\'' :: c :: '\'' :: rest => done (.char c) rest
    | '\'' :: _ => none
    | '"' :: rest => do
      let (s, rest) ← quoted? ('"' :: rest)
      done (.text (String.ofList s)) rest
    | cs =>
      let word := cs.takeWhile (!isSeparator ·)
      done (plain (Text.trimList word)) (cs.dropWhile (!isSeparator ·))

/-- The items of a list up to its bracket, behind those read already. -/
def items? (fuel : Nat) (read : List Value) (cs : List Char) : Option (List Value × List Char) :=
  match fuel with
  | 0 => none
  | fuel + 1 =>
    match cs with
    | ']' :: rest => some (read, rest)
    | _ => do
      let (v, rest) ← literal? fuel cs
      match rest with
      | ',' :: rest => items? fuel (read ++ [v]) rest
      | ']' :: rest => pure (read ++ [v], rest)
      | _ => none

/-- The entries of a dictionary up to its brace, behind those read already. -/
def entries? (fuel : Nat) (read : List (String × Value)) (cs : List Char) :
    Option (List (String × Value) × List Char) :=
  match fuel with
  | 0 => none
  | fuel + 1 =>
    match cs with
    | '\x7d' :: rest => some (read, rest)
    | _ => do
      let (key, rest) ← key? cs
      let (v, rest) ← literal? fuel rest
      match rest with
      | ',' :: rest => entries? fuel (read ++ [(key, v)]) rest
      | '\x7d' :: rest => pure (read ++ [(key, v)], rest)
      | _ => none

end

def value (s : String) : Value :=
  match literal? (2 * s.length + 2) s.toList with
  | some (v, []) => v
  | _ => .scalar .environment (.text s)

/-! ## All variables -/

/-- A value under a path. -/
def nest (value : Value) : List String → Value
  | [] => value
  | key :: path => .dict .environment [(key, nest value path)]

/-- The environment after one assignment: a name that is there already keeps its place. -/
def assign (env : List (String × String)) (name value : String) : List (String × String) :=
  match env with
  | [] => [(name, value)]
  | (n, v) :: rest => if n = name then (name, value) :: rest else (n, v) :: assign rest name value

/-- The environment after assignments in order. -/
def assigned (assignments : List (String × String)) : List (String × String) :=
  assignments.foldl (fun env a => assign env a.1 a.2) []

/-- The assignments of a block of text in which a zero character ends each. -/
def ofBlock (text : String) : List (String × String) :=
  (text.splitOn "\x00").filterMap fun entry =>
    match entry.splitOn "=" with
    | name :: value :: more => some (name, "=".intercalate (value :: more))
    | _ => none

/-- The tree of an environment: later variables over earlier ones. -/
def tree (env : List (String × String)) : Value :=
  env.foldl
    (fun earlier (name, text) =>
      match path? name with
      | none => earlier
      | some path => earlier.over (nest (value text) path))
    (.dict .environment [])

end FeedTraffic.Settings.Variable
