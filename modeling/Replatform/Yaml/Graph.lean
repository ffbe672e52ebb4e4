import Replatform.Yaml.Tag

/-! # YAML nodes

The nodes of a document and their parts.  An alias is a second way to the node that it
names, so the nodes form a graph, in which a collection may even be a part of itself.
Each node has a number, and a collection holds the numbers of its parts.
-/
namespace Replatform
namespace Yaml

/-- The number of a node. -/
abbrev NodeId := Nat

/-- What a node is made of. -/
inductive Content where
  | scalar (text : String)
  | sequence (items : List NodeId)
  | mapping (entries : List (NodeId × NodeId))
  deriving DecidableEq, Repr

/-- A node of a document. -/
structure Node where
  tag : Tag
  content : Content
  deriving DecidableEq, Repr

/-- The node that nothing is written for. -/
def Node.nothing : Node := ⟨.null, .scalar ""⟩

instance : Inhabited Node := ⟨.nothing⟩

/-- The node is a mapping. -/
def Node.isMapping (n : Node) : Bool :=
  match n.content with
  | .mapping _ => true
  | _ => false

/-- The entries of a mapping. -/
def Node.entries (n : Node) : List (NodeId × NodeId) :=
  match n.content with
  | .mapping es => es
  | _ => []

/-- The nodes of a document by number. -/
structure Graph where
  nodes : Array Node
  deriving Repr

namespace Graph

/-- The graph without nodes. -/
def empty : Graph := ⟨#[]⟩

/-- The number of nodes. -/
def size (g : Graph) : Nat := g.nodes.size

/-- The node with a number. -/
def node (g : Graph) (id : NodeId) : Node := (g.nodes[id]?).getD .nothing

/-- The graph with a further node, whose number is the size of the old graph. -/
def add (n : Node) (g : Graph) : Graph := ⟨g.nodes.push n⟩

/-- The graph with another node in place of the one with a number. -/
def put (id : NodeId) (n : Node) (g : Graph) : Graph := ⟨g.nodes.setIfInBounds id n⟩

end Graph
end Yaml
end Replatform
