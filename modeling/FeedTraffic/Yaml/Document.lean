import FeedTraffic.Yaml.Node
import FeedTraffic.Yaml.Plain

/-!
# Settings in a YAML document

A settings file holds a mapping or nothing.  Keys are the texts of scalars, and of two equal keys
the later one counts.  An alias stands for the node of its anchor.  A tag of one's own makes a
dictionary of one entry, with the tag as its key.
-/

namespace FeedTraffic.Yaml

open FeedTraffic.Settings

def maxDepth : Nat := 128

/-- Aliases that may be followed for every event of a document. -/
def aliasesPerEvent : Nat := 100

/-- A reading that may follow so many more aliases, or fail. -/
abbrev Reading := StateT Nat Option

/-- What aliases stand for. -/
abbrev Nodes := Nat → Option Node

/-- The node itself, or the one that an alias stands for. -/
def follow (nodes : Nodes) : Node → Reading Node
  | .alias number => do
    let left ← get
    if left = 0 then failure
    set (left - 1)
    match nodes number with
    | some n => pure n
    | none => failure
  | n => pure n

/-- The key that a tag of one's own makes. -/
def ownTag? : Option (List Char) → Option String
  | some ['!'] => some "!"
  | some ('!' :: name) => some (String.ofList name)
  | _ => none

/-- A value under the key of its tag, if that is one's own. -/
def underTag (origin : Origin) (tag : Option (List Char)) (v : Value) : Value :=
  match ownTag? tag with
  | some key => .dict origin [(key, v)]
  | none => v

def scalarValue (origin : Origin) (tag : Option (List Char)) (text : List Char) (plain : Bool) :
    Option Value := do
  let s := String.ofList text
  let untagged := if plain then Plain.scalar s else .text s
  let scalar ←
    match tag with
    | none => some untagged
    | some ('!' :: _) => some untagged
    | some t => Plain.tagged? (String.ofList t) s
  pure (underTag origin tag (.scalar origin scalar))

def keyText (nodes : Nodes) (n : Node) : Reading String := do
  match ← follow nodes n with
  | .scalar _ text _ => pure (String.ofList text)
  | _ => failure

/-- The value of a node that is nested at most `depth` deep. -/
def value (origin : Origin) (nodes : Nodes) : Nat → Node → Reading Value
  | 0, n => do
    match ← follow nodes n with
    | .scalar tag text plain => StateT.lift (scalarValue origin tag text plain)
    | _ => failure
  | depth + 1, n => do
    match ← follow nodes n with
    | .scalar tag text plain => StateT.lift (scalarValue origin tag text plain)
    | .sequence tag items =>
      let vs ← items.mapM (value origin nodes depth)
      pure (underTag origin tag (.list origin vs))
    | .mapping tag entries =>
      let es ← entries.mapM fun (k, v) => do
        let key ← keyText nodes k
        let v ← value origin nodes depth v
        pure (key, v)
      pure (underTag origin tag (.ofEntries origin es))
    | .alias _ => failure

def documentValue (origin : Origin) (events : List Event) : Option Value := do
  let (linked, targets) ← Linked.link [] events
  let nodes : Nodes := fun n => (targets.lookup n).bind (Linked.node? [])
  match events with
  | [] => pure (.dict origin [])
  | _ =>
    match ← Linked.node? [] linked with
    | .scalar _ [] true => pure (.dict origin [])
    | .mapping _ entries =>
      let (v, _) ← (value origin nodes maxDepth (.mapping none entries)).run
        (aliasesPerEvent * events.length)
      pure v
    | _ => none

def settings? (origin : Origin) (text : String) : Option Value := do
  let tokens ← Token.ofText? text
  let events ← Event.ofTokens? tokens
  documentValue origin events

end FeedTraffic.Yaml
