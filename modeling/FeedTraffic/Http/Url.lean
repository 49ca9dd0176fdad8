import FeedTraffic.Http.Host
import FeedTraffic.Text.Blank

/-!
# Addresses

An address is read as browsers read it: blanks around it are left out, a backslash counts as a
slash where the scheme is one of the web, dots in a path are worked off, and characters that may
not stand in an address are escaped.  A reference is read against a base.
-/

namespace FeedTraffic.Http

open Form (escapeWhere)

structure Url where
  scheme : String
  /-- User, host and service number as written, or none for a scheme that has no hosts. -/
  authority : Option String
  /-- The path with its leading slash. -/
  path : String
  query : Option String := none
  fragment : Option String := none
  deriving DecidableEq, Repr

namespace Url

/-- The schemes of the web with their usual service numbers. -/
def webServices : List (String × Nat) :=
  [("http", 80), ("https", 443), ("ws", 80), ("wss", 443), ("ftp", 21)]

def isWeb (scheme : String) : Bool := (webServices.lookup scheme).isSome

/-- Whether an address has a scheme in which requests can be sent. -/
def isHttp (u : Url) : Bool := u.scheme == "http" || u.scheme == "https"

theorem isHttp_iff {u : Url} : u.isHttp = true ↔ u.scheme = "http" ∨ u.scheme = "https" := by
  simp [isHttp]

/-- Whether no other address can be named from this one. -/
def isOpaque (u : Url) : Bool := u.authority.isNone && !u.path.startsWith "/"

/-! ## Escapes -/

def isPathEscape (c : Char) : Bool :=
  [' ', '"', '#', '<', '>', '?', '\x60', '\x7b', '\x7d', '^'].contains c

def isQueryEscape (web : Bool) (c : Char) : Bool :=
  [' ', '"', '#', '<', '>'].contains c || (web && c == '\'')

def isFragmentEscape (c : Char) : Bool := [' ', '"', '<', '>', '\x60'].contains c

def isUserEscape (c : Char) : Bool :=
  isPathEscape c || ['/', ':', ';', '=', '@', '[', '\\', ']', '|'].contains c

/-! ## Paths -/

/-- A segment with its escaped points resolved, in lower case. -/
def dots (cs : List Char) : List Char :=
  match cs with
  | '%' :: '2' :: 'e' :: rest => '.' :: dots rest
  | '%' :: '2' :: 'E' :: rest => '.' :: dots rest
  | c :: rest => c :: dots rest
  | [] => []

/-- Works off segments behind those done already, the last one first.  One point stays here, two
go back; a last segment of points leaves an empty one. -/
def walk : List (List Char) → List (List Char) → List (List Char)
  | done, [] => done.reverse
  | done, s :: rest =>
    if dots s = ['.', '.'] then
      walk (if rest.isEmpty then [] :: done.drop 1 else done.drop 1) rest
    else if dots s = ['.'] then walk (if rest.isEmpty then [] :: done else done) rest
    else walk (escapeWhere isPathEscape s :: done) rest

def joinSegments (ss : List (List Char)) : String :=
  String.ofList (ss.flatMap fun s => '/' :: s)

/-- The segments of a path behind its leading slash. -/
def segments (web : Bool) (cs : List Char) : List (List Char) :=
  Form.splitOn '/' (if web then cs.map fun c => if c = '\\' then '/' else c else cs)

/-! ## Reading -/

/-- A text cut at its fragment and query. -/
def cut (cs : List Char) : List Char × Option (List Char) × Option (List Char) :=
  let front := cs.takeWhile (· ≠ '#')
  let fragment := if front.length < cs.length then some (cs.drop (front.length + 1)) else none
  let path := front.takeWhile (· ≠ '?')
  let query := if path.length < front.length then some (front.drop (path.length + 1)) else none
  (path, query, fragment)

def queryText (web : Bool) (q : Option (List Char)) : Option String :=
  q.map fun cs => String.ofList (escapeWhere (isQueryEscape web) cs)

def fragmentText (f : Option (List Char)) : Option String :=
  f.map fun cs => String.ofList (escapeWhere isFragmentEscape cs)

/-- The scheme in front of a colon, in lower case, and what follows. -/
def scheme? (cs : List Char) : Option (String × List Char) :=
  let name := cs.takeWhile (· ≠ ':')
  let isSchemeChar (c : Char) : Bool := c.isAlphanum || c == '+' || c == '-' || c == '.'
  if name.length < cs.length && name.head?.any Char.isAlpha && name.all isSchemeChar then
    some (String.ofList (name.map Char.toLower), cs.drop (name.length + 1))
  else none

/-- A service number, unless it is the usual one of its scheme. -/
def readService (scheme : String) (cs : List Char) : Except AddressFault String :=
  if cs.isEmpty then .ok ""
  else if !cs.all Char.isDigit then .error .service
  else
    let n := Nat.ofDigitChars 10 cs 0
    if 65535 < n then .error .service
    else if webServices.lookup scheme = some n then .ok "" else .ok (":" ++ toString n)

/-- Host and service number at the colon that is not inside brackets. -/
def splitService : Bool → List Char → List Char × List Char
  | _, [] => ([], [])
  | inside, c :: cs =>
    if c = ':' ∧ ¬inside then ([], cs)
    else
      let next := if c = '[' then true else if c = ']' then false else inside
      let (host, number) := splitService next cs
      (c :: host, number)

/-- The user in front of a host: a name, and behind its first colon a secret.  Neither has to be
there. -/
def userText (cs : List Char) : String :=
  let name := cs.takeWhile (· ≠ ':')
  let secret := cs.drop (name.length + 1)
  if name.isEmpty && secret.isEmpty then ""
  else
    let escaped (part : List Char) : String := String.ofList (escapeWhere isUserEscape part)
    escaped name ++ (if secret.isEmpty then "" else ":" ++ escaped secret) ++ "@"

/-- User, host and service number.  A host is missing where the scheme is one of the web, or where
something stands around it. -/
def readAuthority (scheme : String) (cs : List Char) : Except AddressFault String := do
  let afterUser := (cs.reverse.takeWhile (· ≠ '@')).reverse
  let user := userText (cs.take (cs.length - afterUser.length - 1))
  let (host, number) := splitService false afterUser
  if host.isEmpty && (isWeb scheme || !cs.isEmpty) then throw .emptyHost
  let host ← Host.ofText (isWeb scheme) host
  let number ← readService scheme number
  pure (user ++ host ++ number)

def withoutUser (u : Url) : Url :=
  { u with authority := u.authority.map fun a =>
      String.ofList ((a.toList.reverse.takeWhile (· ≠ '@')).reverse) }

/-- A text without control characters and spaces at its ends, and without tabs and breaks. -/
def clean (s : String) : List Char :=
  let isEdge (c : Char) : Bool := c.toNat ≤ 0x20
  let cs := ((s.toList.dropWhile isEdge).reverse.dropWhile isEdge).reverse
  cs.filter fun c => c ≠ '\t' ∧ c ≠ '\n' ∧ c ≠ '\r'

def ofWeb (scheme : String) (cs : List Char) : Except AddressFault Url := do
  let cs := cs.dropWhile fun c => c = '/' || c = '\\'
  let isEnd (c : Char) : Bool := c == '/' || c == '\\' || c == '?' || c == '#'
  let a ← readAuthority scheme (cs.takeWhile (!isEnd ·))
  let (path, query, fragment) := cut (cs.dropWhile (!isEnd ·))
  pure
    { scheme, authority := some a
      path := joinSegments (walk [] (segments true (path.drop 1)))
      query := queryText true query, fragment := fragmentText fragment }

def ofOther (scheme : String) (cs : List Char) : Except AddressFault Url :=
  let (rest, query, fragment) := cut cs
  let query := queryText false query
  let fragment := fragmentText fragment
  match rest with
  | '/' :: '/' :: more => do
    let a ← readAuthority scheme (more.takeWhile (· ≠ '/'))
    let path := more.dropWhile (· ≠ '/')
    pure
      { scheme, authority := some a, query, fragment
        path :=
          if path.isEmpty then "" else joinSegments (walk [] (segments false (path.drop 1))) }
  | '/' :: more =>
    .ok
      { scheme, authority := none, query, fragment
        path := joinSegments (walk [] (segments false more)) }
  | _ =>
    .ok
      { scheme, authority := none, query, fragment
        path := String.ofList (escapeWhere (fun _ => false) rest) }

def ofText (s : String) : Except AddressFault Url :=
  match scheme? (clean s) with
  | none => .error .noScheme
  | some (scheme, rest) => if isWeb scheme then ofWeb scheme rest else ofOther scheme rest

/-- Whether a character parts the segments of a path. -/
def isSlash (web : Bool) (c : Char) : Bool := c == '/' || (web && c == '\\')

/-- The path that another one names from a base: from the root if it starts with a slash, else
from where the base is. -/
def pathFrom (web : Bool) (base : String) (path : List Char) : String :=
  match path with
  | a :: behind =>
    if isSlash web a then joinSegments (walk [] (segments web behind))
    else
      let above := (segments false (base.toList.drop 1)).dropLast
      joinSegments (walk above.reverse (segments web path))
  | [] => base

def join (base : Url) (reference : String) : Except AddressFault Url :=
  let cs := clean reference
  let web := isWeb base.scheme
  match scheme? cs with
  | some _ => ofText reference
  | none =>
    if base.isOpaque then .error .opaqueBase
    else if (cs.take 2).length = 2 && (cs.take 2).all (isSlash web) then
      if web then ofWeb base.scheme cs else ofOther base.scheme cs
    else
      let (path, query, fragment) := cut cs
      .ok
        { base with
          path := pathFrom web base.path path
          query := if path.isEmpty && query.isNone then base.query else queryText web query
          fragment := fragmentText fragment }

/-! ## Writing -/

/-- Path and query, as a server sees them. -/
def target (u : Url) : String :=
  u.path ++ match u.query with
    | some q => "?" ++ q
    | none => ""

def toText (u : Url) : String :=
  let authority := match u.authority with
    | some a => "//" ++ a
    | none => ""
  let fragment := match u.fragment with
    | some f => "#" ++ f
    | none => ""
  u.scheme ++ ":" ++ authority ++ u.target ++ fragment

end Url

end FeedTraffic.Http
