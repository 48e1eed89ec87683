/-
# Machine types in documents

A document holds machine types in one of four shapes: a single machine type, an
array of them, a list response with the array under `items`, or an aggregated
response with an array for each scope under `items`.  Entries that are no
mappings are passed over.
-/

import MachineCatalog.MachineType.Wire
import MachineCatalog.Notice

namespace MachineCatalog
namespace Loading

/-- The shape of a document. -/
inductive Shape where
  | machineType
  | array
  | list
  | aggregatedList
  | unknown
deriving DecidableEq

/-- The name of a shape. -/
def Shape.label : Shape → Text
  | .machineType => "machineType"
  | .array => "array"
  | .list => "list"
  | .aggregatedList => "aggregatedList"
  | .unknown => "unknown"

/-- The shape of a mapping: its kind, the form of its items and its self link are
asked in turn. -/
def shapeOfFields (fields : List (Value × Value)) : Except Failure Shape :=
  let kind := Value.get fields "kind"
  let items := Value.get fields "items"
  if kind.holdsLongInteger then abort .longInteger
  else if kind.isText "compute#machineTypeAggregatedList" || items.isMapping then
    .ok .aggregatedList
  else if kind.isText "compute#machineTypeList" || items.isList then .ok .list
  else if kind.isText "compute#machineType" || (Value.get? fields "selfLink").isSome then
    .ok .machineType
  else .ok .unknown

/-- The shape of a document. -/
def detectShape (doc : Value) : Except Failure Shape :=
  if doc.isList then .ok .array
  else
    match doc.entries? with
    | some fields => shapeOfFields fields
    | none => .ok .unknown

/-- The mappings among the members of a list; nothing when the value is none. -/
def objects (v : Value) : List Value := (v.items?.getD []).filter Value.isMapping

/-- The mappings of one scope of an aggregated response. -/
def scopeObjects (scope : Value) : List Value :=
  match scope.entries? with
  | some fields => objects (Value.get fields "machineTypes")
  | none => []

/-- The mappings of all scopes, in order. -/
def scopedObjects (items : Value) : Except Failure (List Value) :=
  if !items.counts then .ok []
  else
    match items.entries? with
    | some scopes => .ok (scopes.flatMap fun scope => scopeObjects scope.2)
    | none => abort (.notScopes items)

/-- The wire forms that a document of the given shape holds. -/
def payloads (shape : Shape) (doc : Value) : Except Failure (List Value) :=
  let items := Value.get (doc.entries?.getD []) "items"
  match shape with
  | .machineType => .ok [doc]
  | .array => .ok (objects doc)
  | .list => .ok (objects items)
  | .aggregatedList => scopedObjects items
  | .unknown => .ok []

/-- Reads wire forms in order.  A rejected one is left out with a notice, or ends
the reading when none may be skipped. -/
def loadPayloads (skipInvalid : Bool) (source : Text) : List Value → Noted (List MachineType)
  | [] => pure []
  | payload :: rest =>
    match MachineType.ofWire payload with
    | .ok m => do
      let ms ← loadPayloads skipInvalid source rest
      return m :: ms
    | .error (.rejected why) =>
      if skipInvalid then do
        Noted.tell (.skipped source why)
        loadPayloads skipInvalid source rest
      else Noted.lift (reject why)
    | .error e => Noted.lift (.error e)

/-- Reads the machine types of one document. -/
def loadDocument (skipInvalid : Bool) (source : Text) (doc : Value) :
    Noted (List MachineType) := do
  match ← Noted.lift (detectShape doc) with
  | .unknown => do
    Noted.tell (.unrecognised source)
    return []
  | shape => do
    let ps ← Noted.lift (payloads shape doc)
    loadPayloads skipInvalid source ps

/-- Reads the machine types of documents in order. -/
def loadDocuments (skipInvalid : Bool) (source : Text) : List Value → Noted (List MachineType)
  | [] => pure []
  | doc :: docs => do
    let ms ← loadDocument skipInvalid source doc
    let more ← loadDocuments skipInvalid source docs
    return ms ++ more

end Loading
end MachineCatalog
