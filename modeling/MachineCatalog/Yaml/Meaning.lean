/-
# The values of documents

The value of a document is the object of its outermost node with all that the
object holds.  A collection that is met again inside of itself is not gone into
once more, and a knot is put around each collection on the way back to it.
-/

import MachineCatalog.Value.SetOrder
import MachineCatalog.Yaml.Document
import MachineCatalog.Yaml.Object

namespace MachineCatalog
namespace Yaml

/-- What an object denotes inside of some collections. -/
structure Unfolded where
  value : Value
  /-- The collections around that are met again, by node. -/
  back : List NodeId
  /-- Whether there is a knot in the value. -/
  knotted : Bool

namespace Unfolded

/-- A value without members. -/
def plain (v : Value) : Unfolded := ⟨v, [], false⟩

/-- Several values together. -/
def together (parts : List Unfolded) (whole : List Value → Value) : Unfolded :=
  ⟨whole (parts.map value), (parts.flatMap back).eraseDups, parts.any knotted⟩

/-- A collection with its members: it gets a knot when it is on the way back to
itself or to a collection around it. -/
def close (i : NodeId) (u : Unfolded) : Unfolded :=
  if u.back.isEmpty then u else ⟨.knot i u.value, u.back.filter (· ≠ i), true⟩

end Unfolded

/-- The values of collections without knots that are known already, by node. -/
abbrev Unfolder := StateM (Array (Option Value))

namespace Unfolder

/-- The members of a list of pairs, from the values of first, second, first, … -/
def pairUp : List Value → List Value
  | a :: b :: rest => .pair a b :: pairUp rest
  | _ => []

/-- The entries of a mapping, from the values of key, value, key, … -/
def entriesOf : List Value → List (Value × Value)
  | k :: v :: rest => (k, v) :: entriesOf rest
  | _ => []

/-- Both nodes of each entry, one after the other. -/
def flatten (entries : List (NodeId × NodeId)) : List NodeId := entries.flatMap fun e => [e.1, e.2]

/-- What a node denotes inside of the collections of other nodes.  As no collection
is gone into again, their number bounds the depth. -/
def unfold (objects : Array (Option Object)) : Nat → List NodeId → NodeId → Unfolder Unfolded
  | 0, _, _ => return .plain .null
  | depth + 1, around, i => do
    if around.contains i then return ⟨.back i, [i], true⟩
    if let some (some v) := (← get)[i]? then return .plain v
    let members (is : List NodeId) (whole : List Value → Value) : Unfolder Unfolded := do
      let parts ← is.mapM (unfold objects depth (i :: around))
      let u := (Unfolded.together parts whole).close i
      if !u.knotted then modify (·.setIfInBounds i (some u.value))
      return u
    match objects[i]?.join with
    | none => return .plain .null
    | some (.scalar v _) => return .plain v
    | some (.list items) => members items .list
    | some (.pairs entries) => members (flatten entries) fun vs => .list (pairUp vs)
    | some (.set is) => members is fun vs => .set (SetOrder.arrange vs)
    | some (.mapping entries) => members (flatten entries) fun vs => .mapping (entriesOf vs)

end Unfolder

/-- The value of a document. -/
def Document.value (d : Document) : Except Problem Value := do
  let objects ← d.graph.objects d.root
  let u := Unfolder.unfold objects (objects.size + 1) [] d.root
  return (u.run (Array.replicate objects.size none)).1.value

end Yaml
end MachineCatalog
