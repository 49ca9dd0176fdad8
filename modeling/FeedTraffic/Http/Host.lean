import FeedTraffic.Http.Form
import FeedTraffic.Number.Whole

/-!
# Hosts in addresses

The host of an address is a domain name or a numeric address of either version.  A name whose last
label is a number has to be a numeric address.  Names are kept in lower case; characters beyond
ASCII stay what they are.
-/

namespace FeedTraffic.Http

inductive AddressFault where
  | noScheme
  | opaqueBase
  | emptyHost
  | domain
  | character
  | service
  | ipv4
  | ipv6
  deriving DecidableEq, Repr

def AddressFault.message : AddressFault → String
  | noScheme => "relative URL without a base"
  | opaqueBase => "relative URL with a cannot-be-a-base base"
  | emptyHost => "empty host"
  | domain => "invalid international domain name"
  | character => "invalid domain character"
  | service => "invalid port number"
  | ipv4 => "invalid IPv4 address"
  | ipv6 => "invalid IPv6 address"

namespace Host

def isForbidden (c : Char) : Bool :=
  ['\x00', '\t', '\n', '\r', ' ', '#', '/', ':', '<', '>', '?', '@', '[', '\\', ']', '^',
    '|'].contains c

def isForbiddenInDomain (c : Char) : Bool :=
  isForbidden c || c.toNat ≤ 0x1F || c.toNat == 0x7F || c == '%'

/-! ## Numeric addresses of version 4 -/

/-- A part of an address: decimal, octal behind a zero, or hexadecimal behind `0x`. -/
def ipv4Part? (cs : List Char) : Option Nat :=
  match cs with
  | [] => none
  | ['0', 'x'] => some 0
  | ['0', 'X'] => some 0
  | '0' :: 'x' :: ds => Number.Whole.inBase? 16 ds
  | '0' :: 'X' :: ds => Number.Whole.inBase? 16 ds
  | '0' :: d :: ds => Number.Whole.inBase? 8 (d :: ds)
  | ds => Number.Whole.inBase? 10 ds

/-- The labels of a name without an empty one at the end. -/
def labels (cs : List Char) : List (List Char) :=
  let ls := Form.splitOn '.' cs
  match ls.getLast? with
  | some [] => if 1 < ls.length then ls.dropLast else ls
  | _ => ls

def endsInNumber (cs : List Char) : Bool :=
  match (labels cs).getLast? with
  | none => false
  | some l =>
    (!l.isEmpty && l.all Char.isDigit)
      || match l with
        | '0' :: 'x' :: ds => ds.all Text.Hex.isDigit
        | '0' :: 'X' :: ds => ds.all Text.Hex.isDigit
        | _ => false

/-- The number of an address: every part but the last one is a byte, and the last one fills up. -/
def ipv4? (cs : List Char) : Option Nat := do
  let parts ← (labels cs).mapM ipv4Part?
  if 4 < parts.length then none
  match parts.reverse with
  | [] => none
  | last :: front =>
    if front.any (255 < ·) || 256 ^ (5 - parts.length) ≤ last then none
    let high := front.reverse.zipIdx.foldl (fun n (p, i) => n + p * 256 ^ (3 - i)) 0
    some (high + last)

def ipv4Text (n : Nat) : String :=
  ".".intercalate ([24, 16, 8, 0].map fun shift => toString (n / 2 ^ shift % 256))

/-! ## Numeric addresses of version 6 -/

def piece? (cs : List Char) : Option Nat :=
  if cs.isEmpty || 4 < cs.length then none else Text.Hex.number? cs

/-- Pieces between colons; a version 4 address at the end counts as two. -/
def pieces? : List (List Char) → Option (List Nat)
  | [] => some []
  | [l] =>
    if l.contains '.' then do
      let parts := Form.splitOn '.' l
      let isByte (p : List Char) : Bool :=
        !p.isEmpty && p.all Char.isDigit && p.length ≤ 3 && (p.length == 1 || p.head? != some '0')
      if parts.length = 4 ∧ parts.all isByte then
        let n ← ipv4? l
        pure [n / 65536, n % 65536]
      else none
    else (piece? l).map ([·])
  | l :: ls => do
    let n ← piece? l
    let rest ← pieces? ls
    pure (n :: rest)

/-- The halves of an address around its double colon, if there is one. -/
def halves : List Char → List Char × Option (List Char)
  | ':' :: ':' :: cs => ([], some cs)
  | c :: cs =>
    let (l, r) := halves cs
    (c :: l, r)
  | [] => ([], none)

/-- The pieces of one half; an empty half has none. -/
def half? (cs : List Char) : Option (List Nat) :=
  if cs.isEmpty then some [] else pieces? (Form.splitOn ':' cs)

def ipv6? (cs : List Char) : Option (List Nat) := do
  match halves cs with
  | (l, none) =>
    let ps ← half? l
    if ps.length = 8 then some ps else none
  | (l, some r) =>
    let left ← half? l
    let right ← half? r
    if left.length + right.length ≤ 7 then
      some (left ++ List.replicate (8 - left.length - right.length) 0 ++ right)
    else none

/-- The first longest run of zeros, of at least two: where it starts and how long it is. -/
def longestZeros (ps : List Nat) : Option (Nat × Nat) :=
  let run (i : Nat) : Nat := ((ps.drop i).takeWhile (· == 0)).length
  (List.range 8).foldl
    (fun best i =>
      let n := run i
      if 2 ≤ n && best.all (fun b => b.2 < n) then some (i, n) else best)
    none

def ipv6Text (ps : List Nat) : String :=
  let words (ns : List Nat) : String :=
    ":".intercalate (ns.map fun n => String.ofList (Nat.toDigits 16 n))
  match longestZeros ps with
  | none => words ps
  | some (i, n) => words (ps.take i) ++ "::" ++ words (ps.drop (i + n))

/-! ## Hosts -/

/-- The address of version 6 behind an opening bracket. -/
def bracketed (rest : List Char) : Except AddressFault String :=
  if rest.getLast? = some ']' then
    match ipv6? rest.dropLast with
    | some ps => .ok ("[" ++ ipv6Text ps ++ "]")
    | none => .error .ipv6
  else .error .ipv6

/-- The domain or the numeric address of version 4 that a text names. -/
def domain (cs : List Char) : Except AddressFault String :=
  let name := (Text.Utf8.decode (Form.unescape cs)).map Char.toLower
  if name.any isForbiddenInDomain || name.contains Text.Utf8.replacement then .error .domain
  else if name.isEmpty then .error .emptyHost
  else if endsInNumber name then
    match ipv4? name with
    | some n => .ok (ipv4Text n)
    | none => .error .ipv4
  else .ok (String.ofList name)

/-- A name that means nothing beyond its scheme, with its control characters escaped. -/
def opaqueName (cs : List Char) : Except AddressFault String :=
  if cs.any isForbidden then .error .character
  else .ok (String.ofList (Form.escapeWhere (fun _ => false) cs))

/-- The host that a text names in an address of the web or another one, as it is written there. -/
def ofText (web : Bool) : List Char → Except AddressFault String
  | '[' :: rest => bracketed rest
  | cs => if web then domain cs else opaqueName cs

end Host

end FeedTraffic.Http
