import LetterGrammar.Yaml.Token

/-!
# YAML nodes

The first document of a YAML text as a tree. The text is read no further than to the first token after the
document.

## Contents

- **`Node`**: scalars, sequences, mappings and aliases.
- **`Reading`**: the state of the reading.
- **`node?`** and its parts: the next node.
- **`Node.read?`**: the first document.
-/

namespace LetterGrammar
namespace Yaml

/-- A value in a YAML text. -/
inductive Node
  /-- A scalar with its full tag, which is empty if there is none. A plain one has no quotes and may mean
      something else than its text. -/
  | scalar (text : String) (tag : String) (plain : Bool)
  | sequence (members : List Node)
  | mapping (entries : List (Node × Node))
  /-- A node that stands elsewhere under a name. -/
  | reference (target : Node)
  /-- An alias for a node in which it stands itself. -/
  | cycle
deriving Repr

namespace Node

/-- The node where nothing is written. -/
def empty : Node := scalar "" "" true

end Node

/-! ## The state of the reading -/

/-- A name for a node, which is missing as long as the node is being read. -/
structure Anchor where
  name : String
  number : Nat
  node? : Option Node

/-- The state of the reading: the scan, the names of nodes with the latest first, and what handles of
    tags stand for. -/
structure Reading where
  scan : Scan
  anchors : List Anchor
  handles : Handles

namespace Reading

/-- The current token. -/
def current? (r : Reading) : Option (Token × Reading) :=
  r.scan.ready?.bind fun s => s.queue.head?.map fun t => (t, { r with scan := s })

/-- Goes on to the next token. -/
def next (r : Reading) : Reading := { r with scan := r.scan.next }

/-- Starts to read a node with a name. -/
def announce (r : Reading) (name : Option String) : Reading :=
  match name with
  | some a => { r with anchors := ⟨a, r.anchors.length, none⟩ :: r.anchors }
  | none => r

/-- Ends the reading of the node with the name that was announced as the given one of all. -/
def complete (r : Reading) (number : Nat) (n : Node) : Reading :=
  { r with anchors := r.anchors.map fun a => if a.number = number then { a with node? := some n } else a }

/-- The node that an alias stands for. -/
def referenced? (r : Reading) (name : String) : Option Node :=
  (r.anchors.find? fun a => a.name = name).map fun a =>
    match a.node? with
    | some n => .reference n
    | none => .cycle

end Reading

/-! ## Nodes -/

/-- The name and the tag before a node, of which one or both may be missing. -/
structure Properties where
  anchor : Option String
  tag : Option Tag

/-- The properties of the next node, in either order. -/
def properties? (r : Reading) : Option (Properties × Reading) := do
  let (t, r) ← r.current?
  match t with
  | .anchor a =>
    let (t, r) ← r.next.current?
    match t with
    | .tag g => some (⟨some a, some g⟩, r.next)
    | _ => some (⟨some a, none⟩, r)
  | .tag g =>
    let (t, r) ← r.next.current?
    match t with
    | .anchor a => some (⟨some a, some g⟩, r.next)
    | _ => some (⟨none, some g⟩, r)
  | _ => some (⟨none, none⟩, r)

/-- The full tag of a node, empty if there is none. Fails if the handle is not known. -/
def Properties.tagText? (p : Properties) (handles : Handles) : Option String :=
  match p.tag with
  | some g => g.resolve? handles
  | none => some ""

/-- What ends an entry of a block sequence without a node. -/
def endsBlockEntry (indentless : Bool) : Token → Bool
  | .blockEntry => true
  | .blockEnd => true
  | .key => indentless
  | .value => indentless
  | _ => false

/-- What ends an entry of a block mapping without a node. -/
def endsMappingPart : Token → Bool
  | .key => true
  | .value => true
  | .blockEnd => true
  | _ => false

mutual

/-- The next node. Blocks start a node only with `block`, dashes without further indentation only with
    `indentless`. -/
def node? : Nat → Bool → Bool → Reading → Option (Node × Reading)
  | 0, _, _, _ => none
  | fuel + 1, block, indentless, r => do
    let (t, r) ← r.current?
    match t with
    | .reference name => (r.referenced? name).map (·, r.next)
    | _ =>
      let (p, r) ← properties? r
      let tag ← p.tagText? r.handles
      let number := r.anchors.length
      let r := r.announce p.anchor
      let (n, r) ← content? fuel block indentless (p.anchor.isSome || p.tag.isSome) tag r
      some (n, if p.anchor.isSome then r.complete number n else r)

/-- The next node after its properties, of which there were some with `any`. -/
def content? : Nat → Bool → Bool → Bool → String → Reading → Option (Node × Reading)
  | 0, _, _, _, _, _ => none
  | fuel + 1, block, indentless, any, tag, r => do
    let (t, r) ← r.current?
    let nothing := if any then some (Node.scalar "" tag tag.isEmpty, r) else none
    match t with
    | .blockEntry =>
      if indentless then (blockSequence? fuel true r).map fun x => (.sequence x.1, x.2) else nothing
    | .scalar text plain =>
      some (.scalar text tag ((tag.isEmpty && plain) || tag = "!"), r.next)
    | .flowSequenceStart => (flowSequence? fuel true r.next).map fun x => (.sequence x.1, x.2)
    | .flowMappingStart => (flowMapping? fuel true r.next).map fun x => (.mapping x.1, x.2)
    | .blockSequenceStart =>
      if block then (blockSequence? fuel false r.next).map fun x => (.sequence x.1, x.2) else nothing
    | .blockMappingStart =>
      if block then (blockMapping? fuel r.next).map fun x => (.mapping x.1, x.2) else nothing
    | _ => nothing

/-- The members of a block sequence. -/
def blockSequence? : Nat → Bool → Reading → Option (List Node × Reading)
  | 0, _, _ => none
  | fuel + 1, indentless, r => do
    let (t, r) ← r.current?
    match t with
    | .blockEntry =>
      let (t, r) ← r.next.current?
      let (n, r) ← if endsBlockEntry indentless t then some (Node.empty, r) else node? fuel true false r
      (blockSequence? fuel indentless r).map fun x => (n :: x.1, x.2)
    | .blockEnd => some ([], if indentless then r else r.next)
    | _ => if indentless then some ([], r) else none

/-- A key or a value of a block mapping after its sign, which may be missing. -/
def mappingPart? : Nat → Reading → Option (Node × Reading)
  | 0, _ => none
  | fuel + 1, r => do
    let (t, r) ← r.current?
    if endsMappingPart t then some (.empty, r) else node? fuel true true r

/-- The entries of a block mapping. -/
def blockMapping? : Nat → Reading → Option (List (Node × Node) × Reading)
  | 0, _ => none
  | fuel + 1, r => do
    let (t, r) ← r.current?
    match t with
    | .key =>
      let (k, r) ← mappingPart? fuel r.next
      let (t, r) ← r.current?
      let (v, r) ← if t = .value then mappingPart? fuel r.next else some (Node.empty, r)
      (blockMapping? fuel r).map fun x => ((k, v) :: x.1, x.2)
    | .blockEnd => some ([], r.next)
    | _ => none

/-- The members of a flow sequence after its opening bracket or after a member. A single pair is a mapping
    of its own. -/
def flowSequence? : Nat → Bool → Reading → Option (List Node × Reading)
  | 0, _, _ => none
  | fuel + 1, first, r => do
    let (t, r) ← r.current?
    if t = .flowSequenceEnd then some ([], r.next)
    else if !first && t ≠ .flowEntry then none
    else
      let (t, r) ← (if first then r else r.next).current?
      if t = .flowSequenceEnd then some ([], r.next)
      else
        let (n, r) ← if t = .key then flowPair? fuel r.next else node? fuel false false r
        (flowSequence? fuel false r).map fun x => (n :: x.1, x.2)

/-- A single pair in a flow sequence, after the sign of its key. A sign in place of the key is passed
    over. -/
def flowPair? : Nat → Reading → Option (Node × Reading)
  | 0, _ => none
  | fuel + 1, r => do
    let (t, r) ← r.current?
    let (k, r) ← if t = .value || t = .flowEntry || t = .flowSequenceEnd then some (Node.empty, r.next)
      else node? fuel false false r
    let (t, r) ← r.current?
    let (v, r) ← if t = .value then flowValue? fuel .flowSequenceEnd r.next else some (Node.empty, r)
    some (.mapping [(k, v)], r)

/-- A value inside a flow collection after its sign, which may be missing. -/
def flowValue? : Nat → Token → Reading → Option (Node × Reading)
  | 0, _, _ => none
  | fuel + 1, close, r => do
    let (t, r) ← r.current?
    if t = close || t = .flowEntry then some (.empty, r) else node? fuel false false r

/-- The entries of a flow mapping after its opening brace or after an entry. -/
def flowMapping? : Nat → Bool → Reading → Option (List (Node × Node) × Reading)
  | 0, _, _ => none
  | fuel + 1, first, r => do
    let (t, r) ← r.current?
    if t = .flowMappingEnd then some ([], r.next)
    else if !first && t ≠ .flowEntry then none
    else
      let (t, r) ← (if first then r else r.next).current?
      if t = .flowMappingEnd then some ([], r.next)
      else
        let (e, r) ← if t = .key then flowEntry? fuel r.next
          else (node? fuel false false r).map fun x => ((x.1, Node.empty), x.2)
        (flowMapping? fuel false r).map fun x => (e :: x.1, x.2)

/-- An entry of a flow mapping after the sign of its key. -/
def flowEntry? : Nat → Reading → Option ((Node × Node) × Reading)
  | 0, _ => none
  | fuel + 1, r => do
    let (t, r) ← r.current?
    let (k, r) ← if t = .value || t = .flowEntry || t = .flowMappingEnd then some (Node.empty, r)
      else node? fuel false false r
    let (t, r) ← r.current?
    let (v, r) ← if t = .value then flowValue? fuel .flowMappingEnd r.next else some (Node.empty, r)
    some ((k, v), r)

end

/-! ## Documents -/

/-- The directives before a document: the version may be given once, and each handle once. -/
def directives? : Nat → Bool → Reading → Option Reading
  | 0, _, _ => none
  | fuel + 1, versionKnown, r => do
    let (t, r) ← r.current?
    match t with
    | .directive (.version major minor) =>
      if versionKnown || major ≠ 1 || minor ≠ 1 then none else directives? fuel true r.next
    | .directive (.handle name lead) =>
      if (r.handles.lookup name).isSome then none
      else directives? fuel versionKnown { r.next with handles := (name, lead) :: r.handles }
    | _ => some { r with handles := r.handles ++ defaultHandles }

/-- The token ends a document before it has a node. -/
def endsDocument : Token → Bool
  | .directive _ => true
  | .documentStart => true
  | .documentEnd => true
  | .streamEnd => true
  | _ => false

/-- The first document. There is none at the end of the text. -/
def document? (fuel : Nat) (r : Reading) : Option (Node × Reading) := do
  let (t, r) ← r.current?
  match t with
  | .streamEnd => none
  | .directive _ | .documentStart =>
    let r ← directives? fuel false r
    let (t, r) ← r.current?
    if t ≠ .documentStart then none
    else
      let (t, r) ← r.next.current?
      if endsDocument t then some (.empty, r) else node? fuel true false r
  | _ => node? fuel true false { r with handles := defaultHandles }

/-- The first document of a file. What follows it must start with a token. -/
def Node.read? (file : List Glyph) : Option Node := do
  let text := Source.ofFile file
  let (n, r) ← document? (8 * text.chars.length + 16) ⟨.start text, [], []⟩
  let _ ← r.current?
  some n

end Yaml
end LetterGrammar
