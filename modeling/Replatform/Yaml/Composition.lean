import Replatform.Yaml.Graph
import Replatform.Yaml.TokenStream

/-! # From tokens to nodes

The document that the tokens of a text describe.  A collection has its number before
its parts have theirs, so an alias inside it can name it.
-/
namespace Replatform
namespace Yaml

/-- The nodes of a document. -/
structure Parsed where
  graph : Graph
  /-- The nodes in the order in which they were complete. -/
  order : List NodeId
  /-- The node that all others are parts of. -/
  top : NodeId

/-- What is left of the tokens, and what has been named so far. -/
structure Composition where
  tokens : List Token
  fault : Option Fault
  /-- What the tag handles stand for. -/
  handles : List (String × String)
  /-- The named nodes. -/
  anchors : List (String × NodeId)
  graph : Graph
  /-- The complete nodes, latest first. -/
  complete : List NodeId
  /-- So many collections may still be opened inside one another. -/
  room : Nat

/-- A step of a composition. -/
abbrev Compose := StateT Composition (Except Fault)

namespace Compose

/-- The next token, if the text is not over. -/
def peek : Compose (Option Token) := do
  let s ← get
  match s.tokens, s.fault with
  | t :: _, _ => return some t
  | [], some fault => throw fault
  | [], none => return none

/-- Takes the next token. -/
def drop : Compose Unit := modify fun s => { s with tokens := s.tokens.tail }

/-- Takes the next token, which has to be `t`. -/
def expect (t : Token) : Compose Unit := do
  if (← peek) = some t then drop else throw .malformed

/-- Names a node. -/
def register (anchor : Option String) (id : NodeId) : Compose Unit :=
  match anchor with
  | some name => modify fun s => { s with anchors := (name, id) :: s.anchors }
  | none => return ()

/-- The node that an alias stands for. -/
def dereference (name : String) : Compose NodeId := do
  match (← get).anchors.lookup name with
  | some id => return id
  | none => throw .malformed

/-- Adds a node with a name. -/
def add (anchor : Option String) (n : Node) : Compose NodeId := do
  let id := (← get).graph.size
  modify fun s => { s with graph := s.graph.add n }
  register anchor id
  return id

/-- Marks a node as complete. -/
def completed (id : NodeId) : Compose NodeId := do
  modify fun s => { s with complete := id :: s.complete }
  return id

/-- Adds a scalar. -/
def scalar (anchor : Option String) (tag : Tag) (text : String) : Compose NodeId := do
  completed (← add anchor ⟨tag, .scalar text⟩)

/-- Adds the node that nothing is written for. -/
def nothing : Compose NodeId := do completed (← add none .nothing)

/-- The full name of a tag. -/
def fullName (t : TagName) : Compose String := do
  match t.handle with
  | none => return t.suffix
  | some handle =>
    match (← get).handles.lookup handle with
    | some target => return target ++ t.suffix
    | none => throw .malformed

/-- The name and the tag in front of a node, in either order. -/
def properties : Compose (Option String × Option TagName) := do
  match ← peek with
  | some (.anchor name) =>
    drop
    match ← peek with
    | some (.tag t) => drop; return (some name, some t)
    | _ => return (some name, none)
  | some (.tag t) =>
    drop
    match ← peek with
    | some (.anchor name) => drop; return (some name, some t)
    | _ => return (none, some t)
  | _ => return (none, none)

/-- The kind of a collection: what its tag says, or else `default`. -/
def collectionTag (tag : Option String) (default : Tag) : Tag :=
  match tag with
  | none => default
  | some name => if name = "!" then default else .ofName name

/-- The kind of a scalar: what its tag says, or else what it looks like, or a text if it is
quoted. -/
def scalarTag (tag : Option String) (plain : Bool) (text : String) : Tag :=
  match tag with
  | none => if plain then .implicit text else .text
  | some name => if name = "!" then .implicit text else .ofName name

/-- Adds a collection whose parts `parts` reads; it is named before they are. -/
def collection (anchor : Option String) (tag : Tag) (parts : Compose Content) : Compose NodeId := do
  let room := (← get).room
  if room = 0 then throw .depth
  let id ← add anchor ⟨tag, .sequence []⟩
  modify fun s => { s with room := room - 1 }
  let content ← parts
  modify fun s => { s with graph := s.graph.put id ⟨tag, content⟩, room := room }
  completed id

mutual

/-- A node.  Block collections are admitted in blocks only, and a sequence without an
indentation of its own only as a part of a mapping. -/
def node (block indentless : Bool) : Nat → Compose NodeId
  | 0 => throw .malformed
  | fuel + 1 => do
    if let some (.alias name) ← peek then
      drop
      return ← dereference name
    let (anchor, tagName) ← properties
    let tag ← tagName.mapM fullName
    let start ← peek
    if let some name := anchor then
      if ((← get).anchors.lookup name).isSome then throw .malformed
    let sequence (parts : Compose (List NodeId)) : Compose NodeId :=
      collection anchor (collectionTag tag .list) (.sequence <$> parts)
    let mapping (parts : Compose (List (NodeId × NodeId))) : Compose NodeId :=
      collection anchor (collectionTag tag .map) (.mapping <$> parts)
    match start with
    | some (.scalar plain text) =>
      drop
      scalar anchor (scalarTag tag plain text) text
    | some .flowSequenceStart => drop; sequence (flowItems true fuel)
    | some .flowMappingStart => drop; mapping (flowEntries true fuel)
    | some .blockSequenceStart =>
      if block then drop; sequence (blockItems fuel) else throw .malformed
    | some .blockMappingStart =>
      if block then drop; mapping (blockEntries fuel) else throw .malformed
    | some .blockEntry =>
      if indentless then sequence (bareItems fuel) else empty anchor tag
    | _ => empty anchor tag

/-- A node of which only the name or the tag is written. -/
def empty (anchor tag : Option String) : Compose NodeId := do
  if anchor.isNone && tag.isNone then throw .malformed
  scalar anchor (scalarTag tag true "") ""

/-- A node, unless one of the tokens `ends` follows. -/
def optional (block indentless : Bool) (ends : List Token) : Nat → Compose NodeId
  | 0 => throw .malformed
  | fuel + 1 => do
    match ← peek with
    | some t => if ends.contains t then nothing else node block indentless fuel
    | none => node block indentless fuel

/-- The items of a block sequence. -/
def blockItems : Nat → Compose (List NodeId)
  | 0 => throw .malformed
  | fuel + 1 => do
    if (← peek) = some .blockEntry then
      drop
      let n ← optional true false [.blockEntry, .blockEnd] fuel
      return n :: (← blockItems fuel)
    expect .blockEnd
    return []

/-- The items of a sequence without an indentation of its own. -/
def bareItems : Nat → Compose (List NodeId)
  | 0 => throw .malformed
  | fuel + 1 => do
    if (← peek) = some .blockEntry then
      drop
      let n ← optional true false [.blockEntry, .key, .value, .blockEnd] fuel
      return n :: (← bareItems fuel)
    return []

/-- The entries of a block mapping.  Each has a key, if only a written one without text. -/
def blockEntries : Nat → Compose (List (NodeId × NodeId))
  | 0 => throw .malformed
  | fuel + 1 => do
    if (← peek) = some .key then
      drop
      let k ← optional true true [.key, .value, .blockEnd] fuel
      let v ← blockValue fuel
      return (k, v) :: (← blockEntries fuel)
    expect .blockEnd
    return []

/-- The value of an entry of a block mapping. -/
def blockValue : Nat → Compose NodeId
  | 0 => throw .malformed
  | fuel + 1 => do
    if (← peek) = some .value then
      drop
      optional true true [.key, .value, .blockEnd] fuel
    else nothing

/-- The items of a flow sequence. -/
def flowItems (first : Bool) : Nat → Compose (List NodeId)
  | 0 => throw .malformed
  | fuel + 1 => do
    if (← peek) = some .flowSequenceEnd then
      drop
      return []
    if !first then expect .flowEntry
    match ← peek with
    | some .flowSequenceEnd => drop; return []
    | some .key =>
      drop
      let id ← collection none .map do
        let k ← optional false false [.value, .flowEntry, .flowSequenceEnd] fuel
        let v ← flowValue [.flowEntry, .flowSequenceEnd] fuel
        return .mapping [(k, v)]
      return id :: (← flowItems false fuel)
    | _ =>
      let n ← node false false fuel
      return n :: (← flowItems false fuel)

/-- The entries of a flow mapping. -/
def flowEntries (first : Bool) : Nat → Compose (List (NodeId × NodeId))
  | 0 => throw .malformed
  | fuel + 1 => do
    if (← peek) = some .flowMappingEnd then
      drop
      return []
    if !first then expect .flowEntry
    match ← peek with
    | some .flowMappingEnd => drop; return []
    | some .key =>
      drop
      let k ← optional false false [.value, .flowEntry, .flowMappingEnd] fuel
      let v ← flowValue [.flowEntry, .flowMappingEnd] fuel
      return (k, v) :: (← flowEntries false fuel)
    | _ =>
      let k ← node false false fuel
      let v ← nothing
      return (k, v) :: (← flowEntries false fuel)

/-- The value of an entry in a flow collection. -/
def flowValue (ends : List Token) : Nat → Compose NodeId
  | 0 => throw .malformed
  | fuel + 1 => do
    if (← peek) = some .value then
      drop
      optional false false ends fuel
    else nothing

end

/-! ### Documents -/

/-- What the tag handles stand for unless a directive says otherwise. -/
def standardHandles : List (String × String) := [("!", "!"), ("!!", Tag.standard)]

/-- The directives in front of a document: one version at most, which has to be of the first
generation, and each tag handle once. -/
def directives (versioned : Bool) : Nat → Compose Unit
  | 0 => throw .malformed
  | fuel + 1 => do
    match ← peek with
    | some (.directive (.version major _)) =>
      drop
      if versioned || major ≠ 1 then throw .malformed
      directives true fuel
    | some (.directive (.tagHandle handle target)) =>
      drop
      if ((← get).handles.lookup handle).isSome then throw .malformed
      modify fun s => { s with handles := (handle, target) :: s.handles }
      directives versioned fuel
    | some (.directive .other) => drop; directives versioned fuel
    | _ => return ()

/-- Takes the ends of documents. -/
def skipDocumentEnds : Nat → Compose Unit
  | 0 => return ()
  | fuel + 1 => do
    if (← peek) = some .documentEnd then
      drop
      skipDocumentEnds fuel

/-- The content of a document behind its start. -/
def content (fuel : Nat) : Compose NodeId := do
  match ← peek with
  | none => nothing
  | some (.directive _) => nothing
  | some .documentStart => nothing
  | some .documentEnd => nothing
  | _ => node true false fuel

/-- What stands before the content of a document that starts with directives or a border. -/
def explicitStart (fuel : Nat) : Compose Unit := do
  modify fun s => { s with handles := [] }
  directives false fuel
  modify fun s => { s with handles := s.handles ++ standardHandles }
  expect .documentStart

/-- The end of the only document.  Where another one starts, its directives are still read. -/
def documentEnd (fuel : Nat) : Compose Unit := do
  skipDocumentEnds fuel
  if (← peek).isSome then
    explicitStart fuel
    throw .malformed

/-- The only document of a text, if there is one. -/
def document (fuel : Nat) : Compose (Option NodeId) := do
  match ← peek with
  | none => return none
  | some .documentStart => explicit
  | some (.directive _) => explicit
  | _ => closed (node true false fuel)
where
  explicit : Compose (Option NodeId) := do
    explicitStart fuel
    closed (content fuel)
  closed (top : Compose NodeId) : Compose (Option NodeId) := do
    let id ← top
    documentEnd fuel
    return some id

end Compose

/-- The document that the tokens describe, if there is one.  So many collections may stand inside
one another at most. -/
def Parsed.ofTokens? (room : Nat) (stream : TokenStream) : Except Fault (Option Parsed) := do
  let start : Composition :=
    ⟨stream.tokens, stream.fault, Compose.standardHandles, [], .empty, [], room⟩
  let (top, s) ← (Compose.document (3 * stream.tokens.length + 3)).run start
  return top.map fun id => ⟨s.graph, s.complete.reverse, id⟩

end Yaml
end Replatform
