import FeedTraffic.Settings.Config
import FeedTraffic.Settings.Mismatch
import FeedTraffic.Time.Reader

/-!
# From trees to configurations

A record is read from a dictionary, entry by entry in the order of the keys, or from a list, item
by item in the order of its fields.  What is not given keeps its default; what no field asks for
is passed over.  The first value that does not fit ends the reading.
-/

namespace FeedTraffic.Settings

open FeedTraffic.Feed FeedTraffic.Number FeedTraffic.Time FeedTraffic.User

/-- How a value at a path is read. -/
abbrev Read (α : Type) := List String → Value → Except Mismatch α

def refuse {α : Type} (path : List String) (v : Value) (reason : Reason) : Except Mismatch α :=
  .error ⟨reason, path, v.origin⟩

def unexpected {α : Type} (expected : Expected) : Read α := fun path v =>
  refuse path v (.type v expected)

namespace Read

/-! ## Scalars -/

def count : Read Nat := fun path v =>
  match v with
  | .scalar _ (.unsigned n) => .ok n
  | .scalar _ (.signed i) =>
    if 0 ≤ i then .ok i.toNat else refuse path v (.value (.signed i) .count)
  | _ => unexpected .count path v

def number : Read Binary64 := fun path v =>
  match v with
  | .scalar _ (.float x) => .ok x
  | .scalar _ (.unsigned n) => .ok (.ofNat n)
  | .scalar _ (.signed i) => .ok (.ofInt i)
  | _ => unexpected .number path v

def bool : Read Bool := fun path v =>
  match v with
  | .scalar _ (.bool b) => .ok b
  | _ => unexpected .bool path v

def textOf? : Value → Option String
  | .scalar _ (.text s) => some s
  | .scalar _ (.char c) => some (String.singleton c)
  | _ => none

def text : Read String := fun path v =>
  match textOf? v with
  | some s => .ok s
  | none => unexpected .text path v

def duration : Read Duration := fun path v =>
  match textOf? v with
  | none => unexpected .duration path v
  | some s =>
    match Duration.ofText s with
    | .ok d => .ok d
    | .error .malformed => refuse path v (.value (.text s) .duration)
    | .error .overflow => refuse path v .overflow

def level : Read Log.Level := fun path v => do
  let s ← text path v
  match Log.Level.ofText? s with
  | some l => pure l
  | none => refuse path v .level

def nothing : Read Unit := fun path v =>
  match v with
  | .scalar _ .empty => .ok ()
  | _ => unexpected .nothing path v

/-- A format by its name, alone or as the only key of a dictionary with an empty value. -/
def format : Read Log.Format := fun path v =>
  let named (path : List String) (s : String) : Except Mismatch Log.Format :=
    match Log.Format.ofName? s with
    | some f => .ok f
    | none => refuse path v (.choice s (Log.Format.all.map (·.name)))
  match v with
  | .scalar _ (.text s) => named path s
  | .dict _ [] => unexpected .chosenKey path v
  | .dict _ ((key, inner) :: _) => do
    let f ← named (path ++ [key]) key
    nothing (path ++ [key]) inner
    pure f
  | _ => unexpected (.choice "LogFormat") path v

/-- Nothing for the empty scalar, else a value. -/
def optional {α : Type} (read : Read α) : Read (Option α) := fun path v =>
  match v with
  | .scalar _ .empty => .ok none
  | _ => (read path v).map some

/-- The items of a list from a position on. -/
def items {α : Type} (read : Read α) (path : List String) :
    Nat → List Value → Except Mismatch (List α)
  | _, [] => .ok []
  | n, v :: vs => do
    let x ← read (path ++ [toString n]) v
    let xs ← items read path (n + 1) vs
    pure (x :: xs)

def sequence {α : Type} (read : Read α) : Read (List α) := fun path v =>
  match v with
  | .list _ vs => items read path 0 vs
  | _ => unexpected .sequence path v

/-! ## Records -/

/-- A field: its key, and how its value goes into what has been read so far. -/
structure Field (ρ : Type) where
  key : String
  read : ρ → Read ρ

/-- A field that is set to what a reader gives. -/
def field {ρ α : Type} (key : String) (read : Read α) (set : ρ → α → ρ) : Field ρ :=
  ⟨key, fun r path v => (read path v).map (set r)⟩

/-- One entry of a dictionary; an entry without a field is passed over. -/
def entry {ρ : Type} (fields : List (Field ρ)) (path : List String) (r : ρ) (e : String × Value) :
    Except Mismatch ρ :=
  match fields.find? (·.key == e.1) with
  | some f => f.read r (path ++ [e.1]) e.2
  | none => .ok r

/-- The fields of a record from a list, by position; what is left over on either side is passed
over. -/
def positions {ρ : Type} (path : List String) : Nat → List (Field ρ) → List Value → ρ →
    Except Mismatch ρ
  | n, f :: fs, v :: vs, r => do
    let r ← f.read r (path ++ [toString n]) v
    positions path (n + 1) fs vs r
  | _, _, _, r => .ok r

/-- A record from its defaults and what a dictionary or list gives. -/
def record {ρ : Type} (name : String) (fields : List (Field ρ)) (defaults : ρ) : Read ρ :=
  fun path v =>
    match v with
    | .dict _ es => es.foldlM (entry fields path) defaults
    | .list _ vs => positions path 0 fields vs defaults
    | _ => unexpected (.record name) path v

/-! ## The records of a configuration -/

structure Bounds where
  min : Option Duration := none
  max : Option Duration := none

def boundFields : List (Field Bounds) :=
  [field "min" duration fun b d => { b with min := some d },
   field "max" duration fun b d => { b with max := some d }]

/-- A pause; neither bound has a default. -/
def wait : Read WaitTime := fun path v => do
  let bounds ← record "WaitTime" boundFields {} path v
  match bounds.min, bounds.max, v with
  | some min, some max, _ => pure ⟨min, max⟩
  | _, _, .list _ vs => refuse path v (.length vs.length "WaitTime" boundFields.length)
  | none, _, _ => refuse path v (.missing "min")
  | _, none, _ => refuse path v (.missing "max")

def overrides : Read Overrides :=
  record "ProfileConfig"
    [field "enabled" bool fun o b => { o with enabled := b },
     field "weight" (optional count) fun o w => { o with weight := w },
     field "wait_time" (optional wait) fun o w => { o with wait := w }]
    {}

def roster : Read Roster :=
  record "Profiles"
    [field "api" overrides fun r o => { r with api := o },
     field "heavy" overrides fun r o => { r with heavy := o },
     field "realistic" overrides fun r o => { r with realistic := o },
     field "website" overrides fun r o => { r with website := o },
     field "social" overrides fun r o => { r with social := o }]
    {}

def samples : Read Samples :=
  record "SampleData"
    [field "pubkeys" (sequence text) fun s ks => { s with pubkeys := ks },
     field "post_ids" (sequence text) fun s ids => { s with postIds := ids },
     field "fallback_post_id" text fun s id => { s with fallbackPostId := id }]
    .default

def logging : Read Logging :=
  record "Logging"
    [field "level" level fun l x => { l with level := x },
     field "format" format fun l x => { l with format := x }]
    {}

def config : Read Config :=
  record "Config"
    [field "host" text fun c x => { c with host := x },
     field "users" count fun c x => { c with users := x },
     field "hatch_rate" number fun c x => { c with hatchRate := x },
     field "run_time" duration fun c x => { c with runTime := x },
     field "keep_ramp_up_metrics" bool fun c x => { c with keepRampUpMetrics := x },
     field "report_file" (optional text) fun c x => { c with reportFile := x },
     field "throttle_requests" (optional count) fun c x => { c with throttleRequests := x },
     field "preflight" bool fun c x => { c with preflight := x },
     field "following_feed" bool fun c x => { c with followingFeed := x },
     field "samples" samples fun c x => { c with samples := x },
     field "profiles" roster fun c x => { c with profiles := x },
     field "logging" logging fun c x => { c with logging := x }]
    {}

end Read

end FeedTraffic.Settings
