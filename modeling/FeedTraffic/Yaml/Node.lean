import FeedTraffic.Yaml.Event

/-!
# Nodes of a YAML document

Events make a tree.  An alias stays a number in the tree; what it stands for is the node that
starts at the events which the number was given for last.
-/

namespace FeedTraffic.Yaml

inductive Node where
  | alias (number : Nat)
  | scalar (tag : Option (List Char)) (text : List Char) (plain : Bool)
  | sequence (tag : Option (List Char)) (items : List Node)
  | mapping (tag : Option (List Char)) (entries : List (Node × Node))
  deriving Repr

/-- An event whose alias is a number. -/
inductive Linked where
  | alias (number : Nat)
  | scalar (tag : Option (List Char)) (text : List Char) (plain : Bool)
  | openSequence (tag : Option (List Char))
  | closeSequence
  | openMapping (tag : Option (List Char))
  | closeMapping
  deriving DecidableEq, Repr

namespace Linked

/-- The anchor of an event and the event without it; an alias takes its number from those given
so far. -/
def ofEvent? (numbers : List (List Char × Nat)) : Event → Option (Option (List Char) × Linked)
  | .alias name => (numbers.lookup name).map fun n => (none, .alias n)
  | .scalar p text plain => some (p.anchor, .scalar p.tag text plain)
  | .openSequence p => some (p.anchor, .openSequence p.tag)
  | .closeSequence => some (none, .closeSequence)
  | .openMapping p => some (p.anchor, .openMapping p.tag)
  | .closeMapping => some (none, .closeMapping)

/-- The numbers after one more anchor, which gets as its number how many names there were. -/
def number (numbers : List (List Char × Nat)) (name : List Char) : List (List Char × Nat) :=
  (name, numbers.length) :: numbers.filter (·.1 ≠ name)

/-- The events from a number's own one on, as far as numbers have been given. -/
abbrev Targets := List (Nat × List Linked)

/-- Links aliases to anchors.  Every alias comes behind its anchor. -/
def link (numbers : List (List Char × Nat)) : List Event → Option (List Linked × Targets)
  | [] => some ([], [])
  | e :: es => do
    let (anchor, l) ← ofEvent? numbers e
    match anchor with
    | none =>
      let (rest, targets) ← link numbers es
      pure (l :: rest, targets)
    | some name =>
      let (rest, targets) ← link (number numbers name) es
      let n := numbers.length
      let targets := if (targets.lookup n).isSome then targets else (n, l :: rest) :: targets
      pure (l :: rest, targets)

/-- A sequence or mapping that is not closed yet, its finished parts in reverse order. -/
inductive Open where
  | sequence (tag : Option (List Char)) (done : List Node)
  | mapping (tag : Option (List Char)) (done : List (Node × Node)) (key : Option Node)

/-- A finished node inside the innermost open one. -/
def Open.add (n : Node) : Open → Open
  | .sequence tag done => .sequence tag (n :: done)
  | .mapping tag done none => .mapping tag done (some n)
  | .mapping tag done (some key) => .mapping tag ((key, n) :: done) none

/-- Goes on with a finished node: the outcome if nothing is open. -/
def settle (n : Node) : List Open → Node ⊕ List Open
  | [] => .inl n
  | o :: os => .inr (o.add n :: os)

/-- The node that starts here, inside what is open. -/
def node? : List Open → List Linked → Option Node
  | _, [] => none
  | open', l :: ls =>
    let next (n : Node) (outside : List Open) : Option Node :=
      match settle n outside with
      | .inl n => some n
      | .inr outside => node? outside ls
    match l, open' with
    | .alias n, _ => next (.alias n) open'
    | .scalar tag text plain, _ => next (.scalar tag text plain) open'
    | .openSequence tag, _ => node? (.sequence tag [] :: open') ls
    | .openMapping tag, _ => node? (.mapping tag [] none :: open') ls
    | .closeSequence, .sequence tag done :: outside => next (.sequence tag done.reverse) outside
    | .closeMapping, .mapping tag done none :: outside => next (.mapping tag done.reverse) outside
    | _, _ => none

end Linked

end FeedTraffic.Yaml
