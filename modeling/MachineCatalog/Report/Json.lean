/-
# JSON catalogs

A list response with the wire form of every machine type, and a note on the
report in front.
-/

import MachineCatalog.Json.Writer
import MachineCatalog.MachineType.Wire
import MachineCatalog.Report.Clock

namespace MachineCatalog
namespace Report
namespace Json

/-- The wire forms of machine types in order. -/
def wireForms : List MachineType → Except Failure (List Value)
  | [] => .ok []
  | m :: ms => do
    let v ← m.toWire
    let vs ← wireForms ms
    return v :: vs

/-- The note on the report. -/
def note (now : Moment) (source : Text) : Value :=
  .object [
    ("generated", .text (clockSeconds now)),
    ("source", .text source),
    ("tool", .text toolName),
    ("version", .text toolVersion)]

/-- The catalog as a value. -/
def document (now : Moment) (source : Text) (ms : List MachineType) : Except Failure Value := do
  let items ← wireForms ms
  return .object [
    ("meta", note now source),
    ("kind", .text "compute#machineTypeList"),
    ("items", .list items)]

/-- The catalog. -/
def render (now : Moment) (source : Text) (ms : List MachineType) : Except Failure Text := do
  let v ← document now source ms
  MachineCatalog.Json.render v

end Json
end Report
end MachineCatalog
