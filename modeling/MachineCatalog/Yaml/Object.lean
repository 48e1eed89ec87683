/-
# The objects of nodes

Every node makes one object under its tag: a value, or a collection of the
objects of other nodes.  A collection is made empty and is filled later, after
everything that was made before it, so the objects of a document are made level
by level, and the first problem on the way counts.

Before a mapping is filled, the mappings under its merge keys are dissolved in
it: their entries come before its own, those of a sequence of mappings from the
last mapping to the first.  A key `=` becomes a text then, wherever the node has
a place.  Of entries with one key the last value counts, at the place of the
first.  Chains of such entries and keys may be as long as `chainLimit`.
-/

import MachineCatalog.Value.Equality
import MachineCatalog.Yaml.Node
import MachineCatalog.Yaml.ScalarValue

namespace MachineCatalog
namespace Yaml

/-- What a node makes; collections hold the nodes of their members. -/
inductive Object where
  /-- A scalar.  A NaN is itself alone: one given by name is the same wherever the
  name stands, any other one belongs to its node. -/
  | scalar (v : Value) (owner : Option NodeId)
  | list (items : List NodeId)
  | pairs (entries : List (NodeId × NodeId))
  | set (members : List NodeId)
  | mapping (entries : List (NodeId × NodeId))
deriving Inhabited

namespace Object

/-- Whether an object may be a key. -/
def canBeKey : Object → Bool
  | .scalar _ _ => true
  | _ => false

/-- Whether two objects are one key. -/
def isSameKey : Object → Object → Bool
  | .scalar v owner, .scalar w other => v.same w && (owner = other || !v.isNan)
  | _, _ => false

end Object

/-- The state in which objects are made. -/
structure Making where
  nodes : Graph
  /-- The objects made so far, by node. -/
  objects : Array (Option Object)
  /-- The collections that have been made since the last round, the last one first. -/
  unfilled : List NodeId

/-- A step in making objects. -/
abbrev Maker := StateT Making (Except Problem)

namespace Maker

/-- How long a chain of default entries or merge keys may be: what the usual limit of the stack
of calls leaves at one depth of calls, as with `nestingLimit`. -/
def chainLimit : Nat := 960

/-- The text of a node where a scalar is wanted: a mapping gives the text of its
default entry. -/
def scalarText (g : Graph) : Nat → NodeId → Except Problem Text
  | 0, _ => .error .tooDeep
  | fuel + 1, i =>
    match g[i]?.map Node.content with
    | some (.scalar text) => .ok text
    | some (.mapping entries) =>
      match entries.find? fun (e : NodeId × NodeId) => g.tag? e.1 = some .default with
      | some e => scalarText g fuel e.2
      | none => .error .malformed
    | _ => .error .malformed

/-- The node of the given number. -/
def node (i : NodeId) : Maker Node := do
  match (← get).nodes[i]? with
  | some n => return n
  | none => throw .malformed

/-- The scalar of a node whose tag is none of a collection. -/
def scalar (i : NodeId) (n : Node) : Maker Object := do
  if !n.tag.isScalar then throw .malformed
  let text ← scalarText (← get).nodes chainLimit i
  match n.tag, n.content with
  | .timestamp, .mapping _ => throw .mappedTimestamp
  | _, _ =>
    let v ← ScalarValue.ofText n.tag text
    return .scalar v (if ScalarValue.isNamedNan text then none else some i)

/-- The collection that a node of the given tag makes, still empty. -/
def empty? : Tag → Option Object
  | .list => some (.list [])
  | .orderedPairs => some (.pairs [])
  | .pairs => some (.pairs [])
  | .set => some (.set [])
  | .mapping => some (.mapping [])
  | _ => none

/-- Keeps the object of a node. -/
def keep (i : NodeId) (o : Object) : Maker Unit :=
  modify fun s => { s with objects := s.objects.setIfInBounds i (some o) }

/-- The object of a node, which is made when it has not been. -/
def object (i : NodeId) : Maker Object := do
  match (← get).objects[i]? with
  | some (some o) => return o
  | _ =>
    let n ← node i
    match empty? n.tag with
    | some o =>
      keep i o
      modify fun s => { s with unfilled := i :: s.unfilled }
      return o
    | none =>
      let o ← scalar i n
      keep i o
      return o

/-- Makes the objects of some nodes. -/
def makeAll : List NodeId → Maker Unit
  | [] => pure ()
  | i :: is => do
    let _ ← object i
    makeAll is

/-- Whether a node is tagged as a merge key. -/
def isMerge (g : Graph) (i : NodeId) : Bool := g.tag? i = some .merge

/-- Turns a key `=` into a text. -/
def retagDefault (g : Graph) (key : NodeId) : Graph :=
  match g[key]? with
  | some ⟨.default, content⟩ => g.put key ⟨.text, content⟩
  | _ => g

/-- Removes the next merge key of a mapping from the entry `index` on, and turns
the keys `=` before it into texts.  Gives the place and the value of the merge key. -/
def takeMerge (i : NodeId) (index : Nat) : Maker (Option (Nat × NodeId)) := do
  let g := (← get).nodes
  let entries := g.entries i
  let before := (entries.drop index).takeWhile fun e => !isMerge g e.1
  let place := index + before.length
  modify fun s => { s with nodes := before.foldl (fun g e => retagDefault g e.1) s.nodes }
  match entries.drop place with
  | [] => return none
  | e :: rest =>
    modify fun s => { s with nodes := s.nodes.putEntries i (entries.take place ++ rest) }
    return some (place, e.2)

/-- The entries of a mapping after what it merges has been dissolved in it. -/
def flatEntries (dissolve : NodeId → Maker Unit) (i : NodeId) :
    Maker (List (NodeId × NodeId)) := do
  match (← node i).content with
  | .mapping _ =>
    dissolve i
    return (← get).nodes.entries i
  | _ => throw .malformed

/-- The entries of merged mappings, from the last mapping to the first. -/
def flatEntriesOfAll (dissolve : NodeId → Maker Unit) :
    List NodeId → Maker (List (NodeId × NodeId))
  | [] => return []
  | i :: is => do
    let entries ← flatEntries dissolve i
    let later ← flatEntriesOfAll dissolve is
    return later ++ entries

/-- The entries that a merge key with the given value brings in. -/
def mergedEntries (dissolve : NodeId → Maker Unit) (value : NodeId) :
    Maker (List (NodeId × NodeId)) := do
  match (← node value).content with
  | .scalar _ => throw .malformed
  | .mapping _ => flatEntries dissolve value
  | .sequence items => flatEntriesOfAll dissolve items

/-- Takes merge keys from a mapping, the entries before `index` having been looked
at.  Gives the entries that they bring in. -/
def takeMerges (dissolve : NodeId → Maker Unit) (i : NodeId) :
    Nat → Nat → Maker (List (NodeId × NodeId))
  | 0, _ => return []
  | fuel + 1, index => do
    match ← takeMerge i index with
    | none => return []
    | some (place, value) =>
      let merged ← mergedEntries dissolve value
      let later ← takeMerges dissolve i fuel place
      return merged ++ later

/-- Dissolves in a mapping what its merge keys name. -/
def dissolve : Nat → NodeId → Maker Unit
  | 0, _ => throw .tooDeep
  | depth + 1, i => do
    let count := ((← get).nodes.entries i).length
    let merged ← takeMerges (dissolve depth) i (count + 1) 0
    modify fun s => { s with nodes := s.nodes.putEntries i (merged ++ s.nodes.entries i) }

/-- Puts an entry among others: a key that is there keeps its place. -/
def putEntry (objects : Array (Option Object)) (key value : NodeId) :
    List (NodeId × NodeId) → List (NodeId × NodeId)
  | [] => [(key, value)]
  | (k, v) :: es =>
    let same :=
      match objects[k]?.join, objects[key]?.join with
      | some o, some p => o.isSameKey p
      | _, _ => false
    if same then (k, value) :: es else (k, v) :: putEntry objects key value es

/-- Makes the keys and values of some entries, in order. -/
def makeEntries : List (NodeId × NodeId) → Maker Unit
  | [] => pure ()
  | (k, v) :: es => do
    if !(← object k).canBeKey then throw .malformed
    let _ ← object v
    makeEntries es

/-- The entries of a mapping, each key once. -/
def entriesOf (i : NodeId) : Maker (List (NodeId × NodeId)) := do
  match (← node i).content with
  | .mapping _ =>
    dissolve chainLimit i
    let entries := (← get).nodes.entries i
    makeEntries entries
    let objects := (← get).objects
    return entries.foldl (fun es e => putEntry objects e.1 e.2 es) []
  | _ => throw .malformed

/-- The pairs of mappings with a single entry. -/
def pairsOf : List NodeId → Maker (List (NodeId × NodeId))
  | [] => return []
  | i :: is => do
    match (← node i).content with
    | .mapping [(k, v)] =>
      let _ ← object k
      let _ ← object v
      return (k, v) :: (← pairsOf is)
    | _ => throw .malformed

/-- The items of a sequence. -/
def itemsOf (i : NodeId) : Maker (List NodeId) := do
  match (← node i).content with
  | .sequence items => return items
  | _ => throw .malformed

/-- Fills the collection of a node. -/
def fill (i : NodeId) : Maker Unit := do
  match (← node i).tag with
  | .list =>
    let items ← itemsOf i
    makeAll items
    keep i (.list items)
  | .orderedPairs | .pairs => keep i (.pairs (← pairsOf (← itemsOf i)))
  | .set => keep i (.set ((← entriesOf i).map (·.1)))
  | .mapping => keep i (.mapping (← entriesOf i))
  | _ => pure ()

/-- Fills collections in order. -/
def fillAll : List NodeId → Maker Unit
  | [] => pure ()
  | i :: is => do
    fill i
    fillAll is

/-- Fills the collections that have been made, and then those made by that, round
after round.  A collection is filled once, so there are no more rounds than nodes. -/
def rounds : Nat → Maker Unit
  | 0 => pure ()
  | fuel + 1 => do
    match (← get).unfilled with
    | [] => pure ()
    | unfilled =>
      modify fun s => { s with unfilled := [] }
      fillAll unfilled.reverse
      rounds fuel

end Maker

/-- The objects that a graph makes, the one of the given node first. -/
def Graph.objects (g : Graph) (root : NodeId) : Except Problem (Array (Option Object)) := do
  let make : Maker Unit := do
    let _ ← Maker.object root
    Maker.rounds (g.size + 1)
  let (_, s) ← make.run ⟨g, Array.replicate g.size none, []⟩
  return s.objects

end Yaml
end MachineCatalog
