/-
# The wire form of machine types

The wire form is a mapping.  Writing emits name, self link and zone from the
identity, and every attribute that is set.  Reading takes the identity from the
self link alone.  Machine types are equal when their wire forms are the same.
-/

import MachineCatalog.MachineType.Builder
import MachineCatalog.NumericId
import MachineCatalog.Value.Equality

namespace MachineCatalog
namespace MachineType

/-- A wire field that passes through: none when the value is unset. -/
def plainField (key : Text) (value : Value) : List (Text × Value) :=
  if value.isNull then [] else [(key, value)]

/-- The wire field of an id. -/
def idField (id : Value) : Except Failure (List (Text × Value)) :=
  if id.isNull then .ok []
  else do
    let n ← NumericId.encode id
    return [("id", .int n)]

/-- The wire field of scratch disks: one object for each size. -/
def scratchField : Option (List Value) → List (Text × Value)
  | none => []
  | some sizes => [("scratchDisks", .list (sizes.map fun size => .object [("diskGb", size)]))]

/-- The wire field of a deprecation status. -/
def deprecatedField : Option DeprecationStatus → Except Failure (List (Text × Value))
  | none => .ok []
  | some d => do
    let v ← d.toWire
    return [("deprecated", v)]

/-- The fields of the wire form, in the order in which they are written. -/
def wireFields (m : MachineType) : Except Failure (List (Text × Value)) := do
  let id ← idField m.id
  let creation ← DeprecationStatus.timestampField "creationTimestamp" m.creationTimestamp
  let deprecated ← deprecatedField m.deprecationStatus
  return id ++ creation ++
    plainField "name" (.text m.name) ++
    plainField "description" m.description ++
    plainField "selfLink" (.text m.machineTypeId.selfLink) ++
    plainField "guestCpus" m.cpus ++
    plainField "memoryMb" m.memoryMb ++
    scratchField m.scratchDisksSizeGb ++
    plainField "maximumPersistentDisks" m.maximumPersistentDisks ++
    plainField "maximumPersistentDisksSizeGb" m.maximumPersistentDisksSizeGb ++
    plainField "zone" (.text m.machineTypeId.zone) ++
    deprecated

/-- The wire form. -/
def toWire (m : MachineType) : Except Failure Value := (wireFields m).map .object

/-- The sizes of scratch disks from their place `i` on. -/
def diskSizes (i : Nat) : List Value → Except Failure (List Value)
  | [] => .ok []
  | disk :: disks =>
    match disk.entries? with
    | some fields => do
      let sizes ← diskSizes (i + 1) disks
      return Value.get fields "diskGb" :: sizes
    | none =>
      reject (.invalidField ("scratchDisks[" ++ Text.decimal i ++ "]") "MachineType" "an object")

/-- The sizes of scratch disks in wire form. -/
def scratchSizes (disks : Value) : Except Failure (Option (List Value)) :=
  if disks.isNull then .ok none
  else
    match disks.items? with
    | some items => (diskSizes 0 items).map some
    | none => reject (.invalidField "scratchDisks" "MachineType" "a list")

/-- A number that may be written as a text. -/
def integerOf (value : Value) : Except Failure Value :=
  match value with
  | .text s =>
    match Text.readInteger? 10 s.chars with
    | some n => .ok (.int n)
    | none => reject (.notAnInteger s)
  | v => .ok v

/-- An optional part of the wire form: `null` stays unset. -/
def optional (read : Value → Except Failure Value) (value : Value) : Except Failure Value :=
  if value.isNull then .ok .null else read value

/-- The machine type with the given fields in wire form. -/
def ofFields (fields : List (Value × Value)) : Except Failure MachineType := do
  let link := Value.get fields "selfLink"
  if link.isNull then reject (.missingField "selfLink" "MachineType wire form")
  let identity ← MachineTypeId.ofUrl link
  let id ← optional (fun v => (NumericId.decode v).map .text) (Value.get fields "id")
  let creation ← optional (fun v => (Timestamp.parse v).map .int)
    (Value.get fields "creationTimestamp")
  let sizes ← scratchSizes (Value.get fields "scratchDisks")
  let diskSize ← integerOf (Value.get fields "maximumPersistentDisksSizeGb")
  let status := Value.get fields "deprecated"
  let status ← if status.isNull then .ok none else (DeprecationStatus.ofWire status).map some
  return {
    machineTypeId := identity
    id := id
    creationTimestamp := creation
    description := Value.get fields "description"
    cpus := Value.get fields "guestCpus"
    memoryMb := Value.get fields "memoryMb"
    scratchDisksSizeGb := sizes
    maximumPersistentDisks := Value.get fields "maximumPersistentDisks"
    maximumPersistentDisksSizeGb := diskSize
    deprecationStatus := status }

/-- Reads the wire form. -/
def ofWire (payload : Value) : Except Failure MachineType :=
  match payload.entries? with
  | some fields => ofFields fields
  | none => reject (.invalidField "<root>" "MachineType wire form" "an object")

/-- Whether two machine types have the same wire form; fails when one of them has
none, the first being asked first. -/
def equals (a b : MachineType) : Except Failure Bool := do
  let v ← a.toWire
  let w ← b.toWire
  return v.same w

/-- Whether a machine type equals one of several with its identity, which are asked
in turn. -/
def isAmong (m : MachineType) : List MachineType → Except Failure Bool
  | [] => .ok false
  | other :: rest =>
    if other.machineTypeId = m.machineTypeId then do
      if ← equals other m then return true else isAmong m rest
    else isAmong m rest

/-- Adds those of the machine types that equal none before them. -/
def addDistinct (seen : List MachineType) : List MachineType → Except Failure (List MachineType)
  | [] => .ok seen
  | m :: rest => do
    if ← isAmong m seen then addDistinct seen rest else addDistinct (seen ++ [m]) rest

/-- The different machine types among some, in the order of their first occurrence. -/
def distinct (ms : List MachineType) : Except Failure (List MachineType) := addDistinct [] ms

end MachineType
end MachineCatalog
