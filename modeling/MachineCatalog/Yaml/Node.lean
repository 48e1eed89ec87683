/-
# Nodes of YAML documents

A node is a scalar, a sequence or a mapping with a tag.  The nodes of a document
are numbered, and a collection holds the numbers of its members, so that an alias
is one more occurrence of a number: a node can have several places, and a
collection can be inside of itself.
-/

import MachineCatalog.Yaml.Tag

namespace MachineCatalog
namespace Yaml

/-- The number of a node in its document. -/
abbrev NodeId := Nat

/-- What a node holds. -/
inductive Content where
  | scalar (text : Text)
  | sequence (items : List NodeId)
  | mapping (entries : List (NodeId × NodeId))

/-- A node. -/
structure Node where
  tag : Tag
  content : Content

/-- The nodes of a document by number. -/
abbrev Graph := Array Node

namespace Graph

/-- The graph with another node in the place of one of its nodes. -/
def put (g : Graph) (i : NodeId) (n : Node) : Graph := g.setIfInBounds i n

/-- The tag of a node. -/
def tag? (g : Graph) (i : NodeId) : Option Tag := g[i]?.map Node.tag

/-- The entries of a mapping; any other node has none. -/
def entries (g : Graph) (i : NodeId) : List (NodeId × NodeId) :=
  match g[i]?.map Node.content with
  | some (.mapping entries) => entries
  | _ => []

/-- The graph with other entries in a mapping. -/
def putEntries (g : Graph) (i : NodeId) (entries : List (NodeId × NodeId)) : Graph :=
  match g[i]? with
  | some n => g.put i { n with content := .mapping entries }
  | none => g

end Graph
end Yaml
end MachineCatalog
