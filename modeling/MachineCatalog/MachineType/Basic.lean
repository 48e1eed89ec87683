/-
# Machine types

A machine type is the hardware that an instance can have: how many virtual CPUs,
how much memory, which disks.  Its identity is always known; every other
attribute may be unset, which differs from zero and from empty.  An attribute
that is `null` is unset.
-/

import MachineCatalog.Deprecation

namespace MachineCatalog

/-- What is known of a machine type besides its identity. -/
structure Attributes where
  id : Value := .null
  /-- Milliseconds from 1970-01-01T00:00:00 UTC. -/
  creationTimestamp : Value := .null
  description : Value := .null
  cpus : Value := .null
  memoryMb : Value := .null
  scratchDisksSizeGb : Option (List Value) := none
  maximumPersistentDisks : Value := .null
  maximumPersistentDisksSizeGb : Value := .null
  deprecationStatus : Option DeprecationStatus := none

/-- A machine type. -/
structure MachineType extends Attributes where
  machineTypeId : MachineTypeId

namespace MachineType

/-- The name in its zone. -/
def name (m : MachineType) : Text := m.machineTypeId.machineType

/-- Whether the machine type may be used for new instances. -/
def isUsable (m : MachineType) : Bool :=
  match m.deprecationStatus with
  | none => true
  | some d => d.isUsable

end MachineType
end MachineCatalog
