/-
# Building machine types

A builder holds an identity that may still be missing, and attributes.  An
assignment sets one of them; setting a field again replaces it.  Building takes
a snapshot, and fails while the identity is missing.
-/

import MachineCatalog.MachineType.Basic

namespace MachineCatalog

/-- A machine type in the making. -/
structure Builder extends Attributes where
  machineTypeId : Option MachineTypeId := none

/-- Setting one field. -/
inductive Assignment where
  | machineTypeId (value : Option MachineTypeId)
  | id (value : Value)
  | creationTimestamp (value : Value)
  | description (value : Value)
  | cpus (value : Value)
  | memoryMb (value : Value)
  | scratchDisksSizeGb (value : Value)
  | maximumPersistentDisks (value : Value)
  | maximumPersistentDisksSizeGb (value : Value)
  | deprecationStatus (value : Option DeprecationStatus)

namespace Builder

/-- The members of a value that is a sequence: the items of a list, the
characters of a text, the keys of a mapping. -/
def members (value : Value) : Except Failure (List Value) :=
  match value.opened with
  | .list items => .ok items
  | .pair a b => .ok [a, b]
  | .set items => .ok items
  | .text s => .ok (s.map fun c => .text [c])
  | .octets bs => .ok (bs.map fun b => .int b.toNat)
  | .mapping entries => .ok (entries.map (·.1))
  | v => abort (.notSequence v)

/-- The scratch disk sizes of a value; `null` leaves them unset. -/
def scratchSizes (value : Value) : Except Failure (Option (List Value)) :=
  if value.isNull then .ok none else (members value).map some

/-- The builder after an assignment. -/
def assign (b : Builder) : Assignment → Except Failure Builder
  | .machineTypeId v => .ok { b with machineTypeId := v }
  | .id v => .ok { b with id := v }
  | .creationTimestamp v => .ok { b with creationTimestamp := v }
  | .description v => .ok { b with description := v }
  | .cpus v => .ok { b with cpus := v }
  | .memoryMb v => .ok { b with memoryMb := v }
  | .scratchDisksSizeGb v => do
    let sizes ← scratchSizes v
    return { b with scratchDisksSizeGb := sizes }
  | .maximumPersistentDisks v => .ok { b with maximumPersistentDisks := v }
  | .maximumPersistentDisksSizeGb v => .ok { b with maximumPersistentDisksSizeGb := v }
  | .deprecationStatus v => .ok { b with deprecationStatus := v }

/-- The machine type with what has been set. -/
def build (b : Builder) : Except Failure MachineType :=
  match b.machineTypeId with
  | none => reject (.missingField "machine_type_id" "MachineType")
  | some m => .ok { b.toAttributes with machineTypeId := m }

end Builder

/-- A builder that holds everything of a machine type. -/
def MachineType.toBuilder (m : MachineType) : Builder :=
  { m.toAttributes with machineTypeId := some m.machineTypeId }

end MachineCatalog
