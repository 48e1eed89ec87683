/-
# Deprecation status

Where a machine type stands in its life, which machine type replaces it, and
when it was or will be deprecated, obsolete and deleted, in milliseconds.  A
time that is `null` is unset.
-/

import MachineCatalog.Identity
import MachineCatalog.Timestamp.Parse
import MachineCatalog.Timestamp.Render

namespace MachineCatalog

/-- The states in the life of a machine type. -/
inductive Status where
  | active
  | deprecated
  | obsolete
  | deleted
deriving DecidableEq

namespace Status

/-- The state as the wire form writes it. -/
def label : Status → Text
  | .active => "ACTIVE"
  | .deprecated => "DEPRECATED"
  | .obsolete => "OBSOLETE"
  | .deleted => "DELETED"

/-- The state with the given label. -/
def ofLabel? (s : Text) : Option Status :=
  [Status.active, .deprecated, .obsolete, .deleted].find? fun x => x.label = s

/-- An obsolete or deleted machine type must not be used for new instances. -/
def isUsable : Status → Bool
  | .active => true
  | .deprecated => true
  | .obsolete => false
  | .deleted => false

end Status

/-- The deprecation status of a machine type. -/
structure DeprecationStatus where
  status : Status
  replacement : Option MachineTypeId
  deprecated : Value
  obsolete : Value
  deleted : Value

namespace DeprecationStatus

/-- Whether the machine type may be used for new instances. -/
def isUsable (d : DeprecationStatus) : Bool := d.status.isUsable

/-- The wire field of a timestamp: none when it is unset. -/
def timestampField (key : Text) (millis : Value) : Except Failure (List (Text × Value)) :=
  if millis.isNull then .ok []
  else do
    let text ← Timestamp.render millis
    return [(key, .text text)]

/-- The wire form: the state, and every other part that is set. -/
def toWire (d : DeprecationStatus) : Except Failure Value := do
  let state : List (Text × Value) := [("state", .text d.status.label)]
  let replacement : List (Text × Value) :=
    match d.replacement with
    | none => []
    | some m => [("replacement", .text m.selfLink)]
  let deprecated ← timestampField "deprecated" d.deprecated
  let obsolete ← timestampField "obsolete" d.obsolete
  let deleted ← timestampField "deleted" d.deleted
  return .object (state ++ replacement ++ deprecated ++ obsolete ++ deleted)

/-- The status of a value that must be set. -/
def statusOf (state : Value) : Except Failure Status :=
  match state with
  | .null => reject (.missingField "state" "DeprecationStatus")
  | .text s =>
    match Status.ofLabel? s with
    | some status => .ok status
    | none => reject (.unknownStatus state)
  | v => reject (.unknownStatus v)

/-- The milliseconds of a timestamp; one that does not count is unset. -/
def millisOf (timestamp : Value) : Except Failure Value :=
  if timestamp.counts then (Timestamp.parse timestamp).map .int else .ok .null

/-- Reads the wire form. -/
def ofWire (payload : Value) : Except Failure DeprecationStatus :=
  match payload.entries? with
  | none => reject (.invalidField "deprecated" "MachineType" "an object")
  | some fields => do
    let status ← statusOf (Value.get fields "state")
    let link := Value.get fields "replacement"
    let replacement ← if link.counts then (MachineTypeId.ofUrl link).map some else .ok none
    let deprecated ← millisOf (Value.get fields "deprecated")
    let obsolete ← millisOf (Value.get fields "obsolete")
    let deleted ← millisOf (Value.get fields "deleted")
    return ⟨status, replacement, deprecated, obsolete, deleted⟩

end DeprecationStatus
end MachineCatalog
