import FeedTraffic.Yaml.Token

/-!
# Events of a YAML document

The tokens of a text are read as one document: a list of scalars, aliases, and the starts and ends
of sequences and mappings.  Missing keys, values and items are empty plain scalars.  A text with a
second document is refused.
-/

namespace FeedTraffic.Yaml

/-- What may stand in front of a node. -/
structure Props where
  anchor : Option (List Char) := none
  /-- The tag with its handle replaced. -/
  tag : Option (List Char) := none
  deriving DecidableEq, Repr

/-- The same for a scalar, where the lone mark is no tag. -/
def Props.ofScalar (p : Props) : Props :=
  if p.tag = some ['!'] then { p with tag := none } else p

inductive Event where
  | alias (name : List Char)
  | scalar (props : Props) (text : List Char) (plain : Bool)
  | openSequence (props : Props)
  | closeSequence
  | openMapping (props : Props)
  | closeMapping
  deriving DecidableEq, Repr

namespace Event

def absent : Event := .scalar {} [] true

/-- What tag handles stand for. -/
abbrev Handles := List (List Char × List Char)

def defaultHandles : Handles :=
  [(['!'], ['!']), (['!', '!'], "tag:yaml.org,2002:".toList)]

/-- A tag with its handle replaced. -/
def resolveTag (handles : Handles) (t : WrittenTag) : Option (List Char) :=
  if t.handle.isEmpty then some t.suffix
  else (handles.lookup t.handle).map (· ++ t.suffix)

/-- The anchor and tag in front of a node, in either order. -/
def props? (handles : Handles) : List Token → Option (Props × List Token)
  | .anchor a :: .tag t :: ts => (resolveTag handles t).map fun tag => (⟨some a, some tag⟩, ts)
  | .tag t :: .anchor a :: ts => (resolveTag handles t).map fun tag => (⟨some a, some tag⟩, ts)
  | .anchor a :: ts => some (⟨some a, none⟩, ts)
  | .tag t :: ts => (resolveTag handles t).map fun tag => (⟨none, some tag⟩, ts)
  | ts => some ({}, ts)

abbrev Read := Option (List Event × List Token)

def before (es : List Event) (r : Read) : Read := r.map fun (more, ts) => (es ++ more, ts)

mutual

/-- A node.  Blocks are allowed where `block` is set, and items without a block of their own where
`bare` is set. -/
def node (handles : Handles) (block bare : Bool) (fuel : Nat) (ts : List Token) : Read :=
  match fuel with
  | 0 => none
  | fuel + 1 =>
    match ts with
    | .alias name :: ts => some ([.alias name], ts)
    | _ => do
      let (p, ts) ← props? handles ts
      match ts with
      | .scalar text plain :: ts => some ([.scalar p.ofScalar text plain], ts)
      | .openSequence :: ts => before [.openSequence p] (flowItems handles true fuel ts)
      | .openMapping :: ts => before [.openMapping p] (flowEntries handles true fuel ts)
      | .item :: _ =>
        if bare then before [.openSequence p] (bareItems handles fuel ts)
        else emptyNode p ts
      | .openBlockSequence :: more =>
        if block then before [.openSequence p] (blockItems handles fuel more) else emptyNode p ts
      | .openBlockMapping :: more =>
        if block then before [.openMapping p] (blockEntries handles fuel more) else emptyNode p ts
      | _ => emptyNode p ts

/-- A node with nothing behind its anchor or tag. -/
def emptyNode (p : Props) (ts : List Token) : Read :=
  if p = {} then none else some ([.scalar p [] true], ts)

def blockItems (handles : Handles) (fuel : Nat) (ts : List Token) : Read :=
  match fuel with
  | 0 => none
  | fuel + 1 =>
    match ts with
    | .closeBlock :: ts => some ([.closeSequence], ts)
    | .item :: ts => do
      let (es, ts) ←
        match ts with
        | .item :: _ => some ([absent], ts)
        | .closeBlock :: _ => some ([absent], ts)
        | _ => node handles true false fuel ts
      before es (blockItems handles fuel ts)
    | _ => none

/-- The items of a sequence that is not indented beyond the mapping around it. -/
def bareItems (handles : Handles) (fuel : Nat) (ts : List Token) : Read :=
  match fuel with
  | 0 => none
  | fuel + 1 =>
    match ts with
    | .item :: ts => do
      let (es, ts) ←
        match ts with
        | .item :: _ => some ([absent], ts)
        | .key :: _ => some ([absent], ts)
        | .value :: _ => some ([absent], ts)
        | .closeBlock :: _ => some ([absent], ts)
        | _ => node handles true false fuel ts
      before es (bareItems handles fuel ts)
    | _ => some ([.closeSequence], ts)

def blockEntries (handles : Handles) (fuel : Nat) (ts : List Token) : Read :=
  match fuel with
  | 0 => none
  | fuel + 1 =>
    let part (ts : List Token) : Read :=
      match ts with
      | .key :: _ => some ([absent], ts)
      | .value :: _ => some ([absent], ts)
      | .closeBlock :: _ => some ([absent], ts)
      | _ => node handles true true fuel ts
    match ts with
    | .closeBlock :: ts => some ([.closeMapping], ts)
    | .key :: ts => do
      let (key, ts) ← part ts
      let (value, ts) ←
        match ts with
        | .value :: ts => part ts
        | _ => some ([absent], ts)
      before (key ++ value) (blockEntries handles fuel ts)
    | _ => none

/-- The items of a sequence in brackets.  An item with a key is a mapping of one entry. -/
def flowItems (handles : Handles) (first : Bool) (fuel : Nat) (ts : List Token) : Read :=
  match fuel with
  | 0 => none
  | fuel + 1 =>
    match ts with
    | .closeSequence :: ts => some ([.closeSequence], ts)
    | _ => do
      let ts ←
        match first, ts with
        | true, _ => some ts
        | false, .comma :: ts => some ts
        | false, _ => none
      match ts with
      | .closeSequence :: ts => some ([.closeSequence], ts)
      | .key :: ts => do
        let (key, ts) ←
          match ts with
          | .value :: ts => some ([absent], ts)
          | .comma :: ts => some ([absent], ts)
          | .closeSequence :: ts => some ([absent], ts)
          | _ => node handles false false fuel ts
        let (value, ts) ←
          match ts with
          | .value :: ts =>
            match ts with
            | .comma :: _ => some ([absent], ts)
            | .closeSequence :: _ => some ([absent], ts)
            | _ => node handles false false fuel ts
          | _ => some ([absent], ts)
        before ([.openMapping {}] ++ key ++ value ++ [.closeMapping])
          (flowItems handles false fuel ts)
      | _ => do
        let (es, ts) ← node handles false false fuel ts
        before es (flowItems handles false fuel ts)

/-- The entries of a mapping in braces. -/
def flowEntries (handles : Handles) (first : Bool) (fuel : Nat) (ts : List Token) : Read :=
  match fuel with
  | 0 => none
  | fuel + 1 =>
    match ts with
    | .closeMapping :: ts => some ([.closeMapping], ts)
    | _ => do
      let ts ←
        match first, ts with
        | true, _ => some ts
        | false, .comma :: ts => some ts
        | false, _ => none
      match ts with
      | .closeMapping :: ts => some ([.closeMapping], ts)
      | .key :: ts => do
        let (key, ts) ←
          match ts with
          | .value :: _ => some ([absent], ts)
          | .comma :: _ => some ([absent], ts)
          | .closeMapping :: _ => some ([absent], ts)
          | _ => node handles false false fuel ts
        let (value, ts) ←
          match ts with
          | .value :: ts =>
            match ts with
            | .comma :: _ => some ([absent], ts)
            | .closeMapping :: _ => some ([absent], ts)
            | _ => node handles false false fuel ts
          | _ => some ([absent], ts)
        before (key ++ value) (flowEntries handles false fuel ts)
      | _ => do
        let (key, ts) ← node handles false false fuel ts
        before (key ++ [absent]) (flowEntries handles false fuel ts)

end

def takeDirectives : List Token → List Directive × List Token
  | .directive d :: ts => let (ds, rest) := takeDirectives ts; (d :: ds, rest)
  | ts => ([], ts)

/-- The handles that directives declare.  One version, 1.1 or 1.2, and no handle twice. -/
def handles? (ds : List Directive) : Option Handles := do
  let versions := ds.filterMap fun
    | .version major minor => some (major, minor)
    | .tag _ _ => none
  let declared := ds.filterMap fun
    | .version _ _ => none
    | .tag handle stem => some (handle, stem)
  if 1 < versions.length || !versions.all (fun v => v == (1, 1) || v == (1, 2)) then none
  if !decide (declared.map (·.1)).Nodup then none
  pure (declared ++ defaultHandles)

/-- The events of a document's node, up to the end of all tokens. -/
def content (handles : Handles) (optional : Bool) (ts : List Token) : Option (List Event) := do
  let missing := match ts with
    | [] => true
    | .documentStart :: _ => true
    | .documentEnd :: _ => true
    | .directive _ :: _ => true
    | _ => false
  let (es, rest) ←
    if optional && missing then some ([absent], ts)
    else node handles true false (4 * ts.length + 4) ts
  if rest.all (· == .documentEnd) then some es else none

/-- The events of the one document that tokens make; none of them if there is no document. -/
def ofTokens? (ts : List Token) : Option (List Event) :=
  match ts with
  | [] => some []
  | .directive _ :: _ =>
    let (ds, rest) := takeDirectives ts
    match rest with
    | .documentStart :: rest => (handles? ds).bind fun handles => content handles true rest
    | _ => none
  | .documentStart :: rest => content defaultHandles true rest
  | _ => content defaultHandles false ts

end Event

end FeedTraffic.Yaml
