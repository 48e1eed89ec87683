/-
# Labels of machine types

How reports show the status and the scratch disks of a machine type, and the
selection of those that are reported.
-/

import MachineCatalog.MachineType.Wire

namespace MachineCatalog
namespace Report

/-- What stands for a missing value. -/
def dash : Text := "—"

/-- A state as reports show it. -/
def statusBadge : Status → Text
  | .active => "active"
  | .deprecated => "⚠️ deprecated"
  | .obsolete => "⛔ obsolete"
  | .deleted => "⛔ deleted"

/-- The status of a machine type and what replaces it; as `code` the name of the
replacement stands between backquotes. -/
def statusLabel (code : Bool) (m : MachineType) : Text :=
  match m.deprecationStatus with
  | none => statusBadge .active
  | some d =>
    match d.replacement with
    | none => statusBadge d.status
    | some r =>
      let name : Text := if code then "`" ++ r.machineType ++ "`" else r.machineType
      statusBadge d.status ++ " → " ++ name

/-- The sizes of the scratch disks. -/
def scratchLabel (m : MachineType) : Text :=
  match m.scratchDisksSizeGb with
  | none => dash
  | some [] => dash
  | some sizes => List.intercalate ", " (sizes.map Value.toText)

/-- A value, or what stands for a missing one. -/
def valueOr (missing : Text) (v : Value) : Text := if v.isNull then missing else v.toText

/-- The values of a machine type that tables and catalogs show as text. -/
def shownValues (m : MachineType) : List Value :=
  [m.cpus, m.memoryMb, m.maximumPersistentDisks] ++ m.scratchDisksSizeGb.getD []

/-- Some values must not hold an integer that is too long to be shown. -/
def requireShown (vs : List Value) : Except Failure Unit :=
  if vs.any Value.holdsLongInteger then abort .longInteger else .ok ()

/-- The machine types in a zone given by name or URL, those that may be used when
only they are wanted, in their order. -/
def select (ms : List MachineType) (zone : Value) (usableOnly : Bool) :
    Except Failure (List MachineType) := do
  let wanted ← Identity.zoneName zone
  let inZone (m : MachineType) : Bool :=
    match wanted with
    | none => true
    | some name => m.machineTypeId.zone = name
  return ms.filter fun m => inZone m && (m.isUsable || !usableOnly)

end Report
end MachineCatalog
