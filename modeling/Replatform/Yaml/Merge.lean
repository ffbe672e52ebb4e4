import Replatform.Yaml.Fault
import Replatform.Yaml.Graph

/-! # Taking in the entries of other mappings

An entry with the merge key stands for the entries of the mapping under it, or of the
mappings in the list under it, which come in front of the mapping's own.  Merging
changes the graph: a mapping that is taken in has its own merges carried out for good,
and its default keys become texts.  A mapping may take in itself, since a merge key is
gone before what it names is looked at; so no more than all merge keys are ever
followed one behind the other.
-/
namespace Replatform
namespace Yaml

namespace Graph

/-- The entry has the merge key. -/
def merges (g : Graph) (e : NodeId × NodeId) : Bool := (g.node e.1).tag = .merge

/-- The number of entries with the merge key. -/
def mergeCount (g : Graph) : Nat := g.nodes.foldl (fun n node => n + node.entries.countP g.merges) 0

/-- The graph with the default key as a text where it is among the entries. -/
def withTextKeys (es : List (NodeId × NodeId)) (g : Graph) : Graph :=
  es.foldl
    (fun g e =>
      let k := g.node e.1
      if k.tag = .value then g.put e.1 { k with tag := .text } else g)
    g

/-- The graph with other entries in a mapping. -/
def putEntries (id : NodeId) (es : List (NodeId × NodeId)) (g : Graph) : Graph :=
  g.put id { g.node id with content := .mapping es }

/-- What the first merge key of a mapping names, and the graph without that entry. -/
def takeMerge (id : NodeId) (g : Graph) : Option (NodeId × Graph) :=
  let es := (g.node id).entries
  (es.find? g.merges).map fun e => (e.2, g.putEntries id (es.eraseP g.merges))

end Graph

/-- A step that changes the graph. -/
abbrev Merging := StateT Graph (Except Fault)

namespace Merging

/-- The entries that a merge key stands for, `merged` giving those of a mapping.  From a list
of mappings the last is taken first, so that earlier ones prevail. -/
def ofSource (merged : NodeId → Merging (List (NodeId × NodeId))) (source : NodeId) :
    Merging (List (NodeId × NodeId)) := do
  let ofMapping (id : NodeId) : Merging (List (NodeId × NodeId)) := do
    if ((← get).node id).isMapping then merged id else throw .malformed
  match ((← get).node source).content with
  | .sequence items => return (← items.mapM ofMapping).reverse.flatten
  | _ => ofMapping source

/-- The entries of a mapping once its merges are carried out, with so many mappings followed one
behind the other at most. -/
def entries : Nat → NodeId → Merging (List (NodeId × NodeId))
  | 0, _ => throw .depth
  | fuel + 1, id => do
    let g ← get
    let es := (g.node id).entries
    let requests := es.filter g.merges
    let es ← if requests.isEmpty then pure es else do
      let taken ← requests.foldlM
        (fun taken _ => do
          match (← get).takeMerge id with
          | none => return taken
          | some (source, g) =>
            set g
            return taken ++ (← ofSource (entries fuel) source))
        []
      let es := taken ++ ((← get).node id).entries
      modify (Graph.putEntries id es)
      pure es
    modify (Graph.withTextKeys es)
    return es

end Merging
end Yaml
end Replatform
