import Replatform.Yaml.Composition
import Replatform.Yaml.Literal
import Replatform.Yaml.Merge

/-! # The value of a YAML document

Scalars are read as their tags say and collections become lists and maps.  The parts of
a collection are looked at only after those of all collections found before, so the
fault in the higher collection counts, and within a level the one further left.  What a
node means is found once, however many ways lead to it.
-/
namespace Replatform
namespace Yaml

/-! ### Keys -/

/-- A key of a map.  What is not a number is no other key's equal: there is one by name, and
otherwise one for each node. -/
structure Key where
  value : Value
  /-- The node that the key is written in, unless it is the one by name. -/
  written : Option NodeId

/-- The two keys are the same. -/
def Key.same (j k : Key) : Bool :=
  j.value.sameKey k.value || (j.value.isNaN && k.value.isNaN && j.written = k.written)

/-- The entries with `a` under `k`: in place of the old value, or at the end. -/
def Key.insert {α : Type} (k : Key) (a : α) : List (Key × α) → List (Key × α)
  | [] => [(k, a)]
  | (j, b) :: rest => if j.same k then (j, a) :: rest else (j, b) :: Key.insert k a rest

/-! ### Meanings of nodes -/

/-- What a node means; the parts of a collection are given by their nodes. -/
inductive Meaning where
  | scalar (key : Key)
  | list (items : List NodeId)
  | pairs (items : List (NodeId × NodeId))
  | set (keys : List Key)
  | map (entries : List (Key × NodeId))

/-- The key that a node is, if it means a scalar. -/
def Meaning.key? : Meaning → Option Key
  | .scalar k => some k
  | _ => none

/-- How far the meanings of the nodes have been found. -/
structure Interpretation where
  graph : Graph
  /-- The merge keys that there were at the start. -/
  mergeKeys : Nat
  /-- So many nodes are followed one behind the other at most. -/
  chain : Nat
  /-- The meanings by number of node.  A collection whose parts have not been looked at counts
  as empty. -/
  meanings : Array (Option Meaning)
  /-- The collections whose parts have not been looked at, latest first. -/
  waiting : List NodeId

/-- A step of an interpretation. -/
abbrev Interpret := StateT Interpretation (Except Fault)

namespace Interpret

/-- The node with a number. -/
def node (id : NodeId) : Interpret Node := return (← get).graph.node id

/-- Notes what a node means. -/
def note (id : NodeId) (m : Meaning) : Interpret Unit :=
  modify fun s => { s with meanings := s.meanings.setIfInBounds id (some m) }

/-- What a node means, if that has been found. -/
def meaning? (id : NodeId) : Interpret (Option Meaning) :=
  return ((← get).meanings[id]?).join

/-- The text of a scalar.  A mapping with the default key stands for the value under it. -/
def text (g : Graph) : Nat → NodeId → Except Fault String
  | 0, _ => .error .depth
  | fuel + 1, id =>
    match (g.node id).content with
    | .scalar s => .ok s
    | .sequence _ => .error .malformed
    | .mapping es =>
      match es.find? fun e => (g.node e.1).tag = .value with
      | some (_, v) => text g fuel v
      | none => .error .malformed

/-- What a node with the tag of a scalar means. -/
def scalar (id : NodeId) : Interpret Meaning := do
  let state ← get
  let g := state.graph
  let n := g.node id
  if !n.tag.isScalar then throw .malformed
  let s ← text g (min (g.size + 1) state.chain) id
  if n.tag = .timestamp ∧ n.isMapping then throw .timeOfMapping
  let v ← readScalar n.tag s
  let named : Bool := n.tag = .float && namesNaN s.toList
  return .scalar ⟨v, if named then none else some id⟩

/-- Finds what a node means.  A collection is only put on the list of those that wait. -/
def visit (id : NodeId) : Interpret Unit := do
  if (← meaning? id).isSome then return
  match (← node id).tag with
  | .list => wait (.list [])
  | .orderedMap => wait (.pairs [])
  | .pairs => wait (.pairs [])
  | .map => wait (.map [])
  | .set => wait (.set [])
  | _ => note id (← scalar id)
where
  wait (m : Meaning) : Interpret Unit := do
    note id m
    modify fun s => { s with waiting := id :: s.waiting }

/-- The key that a node is, which must be no collection. -/
def key (id : NodeId) : Interpret Key := do
  visit id
  match (← meaning? id).bind Meaning.key? with
  | some k => return k
  | none => throw .malformed

/-- The items of a sequence. -/
def items (id : NodeId) : Interpret (List NodeId) := do
  match (← node id).content with
  | .sequence ids => return ids
  | _ => throw .malformed

/-- The keys and values of a mapping, with those that it takes in. -/
def entries (id : NodeId) : Interpret (List (Key × NodeId)) := do
  if !(← node id).isMapping then throw .malformed
  let s ← get
  let (es, g) ← (Merging.entries (min (s.mergeKeys + 1) s.chain) id).run s.graph
  set { s with graph := g }
  es.foldlM
    (fun m (k, v) => do
      let k ← key k
      visit v
      return Key.insert k v m)
    []

/-- The key and the value of a mapping with one entry. -/
def pair (id : NodeId) : Interpret (NodeId × NodeId) := do
  match (← node id).content with
  | .mapping [(k, v)] =>
    visit k
    visit v
    return (k, v)
  | _ => throw .malformed

/-- Looks at the parts of a collection. -/
def fill (id : NodeId) : Interpret Unit := do
  match (← node id).tag with
  | .list =>
    let ids ← items id
    ids.forM visit
    note id (.list ids)
  | .map => note id (.map (← entries id))
  | .set => note id (.set ((← entries id).map Prod.fst))
  | _ => note id (.pairs (← (← items id).mapM pair))

/-- Looks at the parts of the collections that wait, until none does. -/
def rounds : Nat → Interpret Unit
  | 0 => return ()
  | fuel + 1 => do
    let ids := (← get).waiting.reverse
    if ids.isEmpty then return
    modify fun s => { s with waiting := [] }
    ids.forM fill
    rounds fuel

end Interpret

/-- What the nodes of a document mean, with so many followed one behind the other at most. -/
def Parsed.meanings (chain : Nat) (p : Parsed) : Except Fault (Array (Option Meaning)) := do
  let g := p.graph
  let start : Interpretation := ⟨g, g.mergeCount, chain, Array.replicate g.size none, []⟩
  let steps : Interpret Unit := do
    Interpret.visit p.top
    Interpret.rounds (g.size + 1)
  let (_, s) ← steps.run start
  return s.meanings

/-! ### Values of nodes -/

/-- What is known of the loader that finds the values: how much room there is for calls one inside
the other, and in which order it goes through the elements of a set. -/
structure Loader where
  /-- So many collections may stand inside one another at most. -/
  room : Nat
  /-- So many nodes are followed one behind the other at most. -/
  chain : Nat
  /-- The elements of a set in the order in which they are gone through. -/
  sets : List Value → List Value
  /-- There is room for what is not nested on purpose. -/
  le_room : 40 ≤ room
  chain_pos : 0 < chain
  sets_perm : ∀ vs, (sets vs).Perm vs

/-- A loader that goes through sets in the order of the file. -/
def Loader.standard : Loader where
  room := 490
  chain := 985
  sets := id
  le_room := by decide
  chain_pos := by decide
  sets_perm _ := .refl _

/-- The value of a node with a meaning, given those of its parts. -/
def Meaning.value (sets : List Value → List Value) (values : Array Value) : Meaning → Value
  | .scalar k => k.value
  | .list ids => .list (ids.map of)
  | .pairs es => .list (es.map fun (k, v) => .pair (of k) (of v))
  | .set ks => .set (sets (ks.map Key.value))
  | .map es => .map (es.map fun (k, v) => (k.value, of v))
where
  of (id : NodeId) : Value := (values[id]?).getD .null

/-- How deep a collection that is a part of itself is unfolded: deeper than any schema looks. -/
def unfoldings : Nat := 12

/-- The values of the nodes in the order `order`, from older ones.  A collection whose parts all
stand before it has its full value then; any other is unfolded a level further. -/
def unfold (sets : List Value → List Value) (meanings : Array (Option Meaning))
    (order : List NodeId) (values : Array Value) : Array Value :=
  order.foldl
    (fun values id =>
      match (meanings[id]?).join with
      | some m => values.setIfInBounds id (m.value sets values)
      | none => values)
    values

/-- The value of a document. -/
def Parsed.value (loader : Loader) (p : Parsed) : Except Fault Value := do
  let meanings ← p.meanings loader.chain
  let values := (List.range unfoldings).foldl
    (fun values _ => unfold loader.sets meanings p.order values)
    (Array.replicate p.graph.size .null)
  return (values[p.top]?).getD .null

/-! ### Texts -/

/-- `c` may stand in a text. -/
def isAllowed (c : Char) : Bool :=
  let n := c.toNat
  c = '\t' || c = '\n' || c = '\r' || (0x20 ≤ n && n ≤ 0x7E) || n = 0x85 ||
    (0xA0 ≤ n && n ≤ 0xFFFD) || 0x10000 ≤ n

/-- The value of a text.  An empty text has the null value. -/
def read (loader : Loader) (cs : List Char) : Except Fault Value := do
  if !cs.all isAllowed then throw .malformed
  match ← Parsed.ofTokens? loader.room (.ofText cs) with
  | some p => p.value loader
  | none => return .null

end Yaml
end Replatform
