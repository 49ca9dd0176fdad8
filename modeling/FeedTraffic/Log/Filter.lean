import FeedTraffic.Log.Record
import FeedTraffic.Number.Shortest

/-!
# Log filters

A filter is a list of directives such as `feed=info`: records of a target pass up to a level.
The directive that says most about a record decides.  A directive may also name a span and values
of it; such directives decide about records inside spans only.
-/

namespace FeedTraffic.Log

open FeedTraffic.Number

/-- A named value in a directive, with what it has to be. -/
structure Condition where
  name : String
  value : Option String
  deriving DecidableEq, Repr

structure Directive where
  target : Option String := none
  span : Option String := none
  conditions : List Condition := []
  level : Level := .trace
  deriving DecidableEq, Repr

namespace Directive

/-! ## Reading -/

def valueText (s : String) : String :=
  if s = "true" ∨ s = "false" then s
  else match Whole.unsigned? (2 ^ 64 - 1) s.toList with
    | some n => toString n
    | none =>
      match Whole.signed? (2 ^ 63 - 1) s.toList with
      | some i => toString i
      | none =>
        match Binary64.ofText? s with
        | some x => x.plain
        | none => s

def condition (s : String) : Condition :=
  match s.splitOn "=" with
  | name :: value :: _ => ⟨name, some (valueText value)⟩
  | [name] => ⟨name, none⟩
  | [] => ⟨"", none⟩

/-- What is being read, and where it began. -/
inductive Part where
  | start
  | levelOrTarget (begin : Nat)
  | span (begin : Nat)
  | condition (begin : Nat)
  | conditions
  | target
  | level (begin : Nat)
  deriving DecidableEq, Repr

inductive Fault where
  | form
  | level
  deriving DecidableEq, Repr

def Fault.message : Fault → String
  | form => "invalid filter directive"
  | level =>
    "error parsing level filter: expected one of \"off\", \"error\", \"warn\", \"info\", " ++
      "\"debug\", \"trace\", or a number 0-5"

/-- Ranges of characters beyond ASCII that are neither letters nor digits. -/
def symbols : List (Nat × Nat) :=
  [(0x80, 0xA9), (0xAB, 0xB1), (0xB4, 0xB4), (0xB6, 0xB8), (0xBB, 0xBB), (0xBF, 0xBF),
   (0xD7, 0xD7), (0xF7, 0xF7), (0x2000, 0x206F), (0x20A0, 0x20FF), (0x2190, 0x245F),
   (0x2500, 0x2775), (0x2794, 0x2BFF), (0x3000, 0x3004), (0x3008, 0x3020), (0xE000, 0xF8FF),
   (0xFE10, 0xFE6F), (0xFF00, 0xFF0F), (0xFF1A, 0xFF20), (0xFFE0, 0xFFFF), (0x1F000, 0x1FAFF),
   (0xE0000, 0x10FFFF)]

def isAlphanumeric (c : Char) : Bool :=
  if c.toNat < 0x80 then c.isAlphanum
  else symbols.all fun (lo, hi) => c.toNat < lo || hi < c.toNat

def canStart (c : Char) : Bool := c == '-' || c == ':' || c == '_' || isAlphanumeric c

def slice (cs : List Char) (begin stop : Nat) : String :=
  String.ofList ((cs.drop begin).take (stop - begin))

/-- One more character, at a position.  Texts are cut out of `whole`. -/
def step (whole : List Char) (i : Nat) (c : Char) (p : Part) (d : Directive) :
    Except Fault (Part × Directive) :=
  let condition' (begin : Nat) : Except Fault Directive :=
    if i ≤ begin then .error .form
    else .ok { d with conditions := d.conditions ++ [condition (slice whole begin i)] }
  match p with
  | .start =>
    if c = '[' then .ok (.span (i + 1), d)
    else if canStart c then .ok (.levelOrTarget i, d)
    else .error .form
  | .levelOrTarget b =>
    if c = '=' then .ok (.level (i + 1), { d with target := some (slice whole b i) })
    else if c = '[' then .ok (.span (i + 1), { d with target := some (slice whole b i) })
    else .ok (p, d)
  | .span b =>
    let named := slice whole b i
    if c = ']' then .ok (.target, { d with span := some named })
    else if c = '\x7b' then
      .ok (.condition (i + 1), { d with span := if named.isEmpty then none else some named })
    else .ok (p, d)
  | .condition b =>
    if c = '\x7d' then (condition' b).map fun d => (.conditions, d)
    else .ok (p, d)
  | .conditions => if c = ']' then .ok (.target, d) else .error .form
  | .target => if c = '=' then .ok (.level (i + 1), d) else .error .form
  | .level _ => .ok (p, d)

/-- The level of a text; no text at all is the most detailed one. -/
def levelOf (s : String) : Except Fault Level :=
  if s.isEmpty then .ok .trace
  else match Level.ofText? s with
    | some l => .ok l
    | none => .error .level

def steps (whole : List Char) : Nat → List Char → Part → Directive →
    Except Fault (Part × Directive)
  | _, [], p, d => .ok (p, d)
  | i, c :: cs, p, d => do
    let (p, d) ← step whole i c p d
    steps whole (i + 1) cs p d

/-- The directive of a text.  Blanks around it are skipped, but what is cut out counts from the
start of the text as it stands. -/
def ofText (s : String) : Except Fault Directive := do
  let whole := s.toList
  let (p, d) ← steps whole 0 (Text.trimList whole) .start {}
  match p with
  | .levelOrTarget b =>
    let rest := slice whole b whole.length
    if rest.isEmpty then pure { d with target := none }
    else match Level.ofText? rest with
      | some l => pure { d with level := l, target := none }
      | none => pure { d with target := some rest }
  | .level b =>
    let level ← levelOf (slice whole b whole.length)
    pure { d with level }
  | .target => pure d
  | _ => throw .form

/-! ## Writing -/

def conditionText (c : Condition) : String :=
  match c.value with
  | some v => c.name ++ "=" ++ v
  | none => c.name

def toText (d : Directive) : String :=
  let conditions :=
    if d.conditions.isEmpty then ""
    else "\x7b" ++ ",".intercalate (d.conditions.map conditionText) ++ "\x7d"
  let span :=
    if d.span.isNone && d.conditions.isEmpty then ""
    else "[" ++ d.span.getD "" ++ conditions ++ "]"
  let front := d.target.getD "" ++ span
  let isNamed := d.target.isSome || d.span.isSome || !d.conditions.isEmpty
  (if isNamed then front ++ "=" else "") ++ d.level.name

/-! ## Order -/

/-- Whether a directive looks at spans or values. -/
def isDynamic (d : Directive) : Bool := d.span.isSome || !d.conditions.isEmpty

/-- The directive without spans, if it makes sense without them. -/
def static? (d : Directive) : Option Directive :=
  if d.span.isNone && d.conditions.all (·.value.isNone) then some d else none

/-- What a directive is about, apart from its level. -/
def subject (d : Directive) : Option String × Option String × List Condition :=
  (d.target, d.span, d.conditions)

/-- Missing texts come before all texts, and texts go by their length. -/
def size (s : Option String) : Nat :=
  match s with
  | none => 0
  | some t => t.utf8ByteSize + 1

/-- How much a directive says, compared with another one. -/
def compareSubjects (a b : Directive) : Ordering :=
  (compare (size a.target) (size b.target)).then <|
    (compare a.span.isSome.toNat b.span.isSome.toNat).then <|
      (compare a.conditions.length b.conditions.length).then <|
        (compare (a.target.getD "") (b.target.getD "")).then <|
          (compare (a.span.getD "") (b.span.getD "")).then <|
            compare (",".intercalate (a.conditions.map conditionText))
              (",".intercalate (b.conditions.map conditionText))

/-- Directives with one more, those that say most first; one about the same is replaced. -/
def insert (d : Directive) : List Directive → List Directive
  | [] => [d]
  | e :: es =>
    if e.subject = d.subject then d :: es
    else if compareSubjects e d = .lt then d :: e :: es
    else e :: insert d es

end Directive

structure Filter where
  /-- Those that decide about all records. -/
  static : List Directive := []
  /-- Those that decide inside spans. -/
  dynamic : List Directive := []
  deriving DecidableEq, Repr

namespace Filter

def ofDirectives (ds : List Directive) : Filter :=
  let dynamic := ds.filter (·.isDynamic)
  let static := (ds.filter (!·.isDynamic)).filterMap (·.static?) ++ dynamic.filterMap (·.static?)
  { static := static.foldl (fun found d => d.insert found) []
    dynamic := dynamic.foldl (fun found d => d.insert found) [] }

/-- A filter and the texts that were left out of it, with the reasons. -/
structure Reading where
  filter : Filter
  ignored : List (String × Directive.Fault) := []

/-- The filter of a text.  What is no directive is left out; with nothing left only errors
pass. -/
def ofText (s : String) : Reading :=
  let parts := (s.splitOn ",").filter (!·.isEmpty)
  let read := parts.map fun p => (p, Directive.ofText p)
  let ds := read.filterMap fun (_, d) => d.toOption
  let ignored := read.filterMap fun (p, d) =>
    match d with
    | .ok _ => none
    | .error e => some (p, e)
  { filter := ofDirectives (if ds.isEmpty then [{ level := .error }] else ds), ignored }

/-- The filter that is used unless another one is asked for. -/
def default : Filter :=
  ofDirectives
    [{ level := .info }, { target := some "goose", level := .info },
     { target := some "feedload", level := .trace }]

def texts (f : Filter) : List String := (f.static ++ f.dynamic).map (·.toText)

/-- Whether a directive is about a record. -/
def concerns (d : Directive) (r : Record) : Bool :=
  (d.target.getD "").toList.isPrefixOf r.target.toList
    && d.conditions.all fun c => r.names.contains c.name

def admits (f : Filter) (r : Record) : Bool :=
  match f.static.find? (concerns · r) with
  | some d => d.level.admits r.level
  | none => false

end Filter

/-- What decides about records: a level, a filter, and texts that were left out of the filter. -/
structure Gate where
  level : Level
  filter : Filter
  ignored : List (String × Directive.Fault) := []

namespace Gate

/-- The gate of a configured level and the setting that goes before it.  A setting that is a level
replaces the configured one; any other is a filter. -/
def ofSettings (configured : Level) (setting : Option String) : Gate :=
  match setting with
  | none => { level := configured, filter := .default }
  | some s =>
    match Level.ofText? s with
    | some l => { level := l, filter := .default }
    | none =>
      let r := Filter.ofText s
      { level := .trace, filter := r.filter, ignored := r.ignored }

def admits (g : Gate) (r : Record) : Bool := g.level.admits r.level && g.filter.admits r

end Gate

end FeedTraffic.Log
