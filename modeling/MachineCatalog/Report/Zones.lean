/-
# Machine types by zone

Catalogs list machine types zone by zone.  Zones are in the order of their text
`project/zone`, the machine types of one zone in the order of their names; equal
names keep their order.
-/

import MachineCatalog.MachineType.Basic

namespace MachineCatalog
namespace Report

/-- The text of the zone of a machine type. -/
def zoneText (m : MachineType) : Text := m.machineTypeId.zoneId.text

/-- The order of texts: by code point. -/
def textLe (a b : Text) : Bool := !(b < a)

/-- The different texts in increasing order. -/
def distinctSorted (texts : List Text) : List Text := (texts.mergeSort textLe).eraseReps

/-- The machine types of each zone. -/
def byZone (ms : List MachineType) : List (Text × List MachineType) :=
  (distinctSorted (ms.map zoneText)).map fun zone =>
    (zone, (ms.filter fun m => zoneText m = zone).mergeSort fun a b => textLe a.name b.name)

end Report
end MachineCatalog
