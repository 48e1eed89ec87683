/-
# Markdown catalogs

A heading, three lines on the report, and for each zone a table with a row for
each machine type.
-/

import MachineCatalog.Report.Clock
import MachineCatalog.Report.Labels
import MachineCatalog.Report.Zones

namespace MachineCatalog
namespace Report
namespace Markdown

/-- The lines before the tables. -/
def preamble (now : Moment) (source : Text) (count : Nat) : List Text := [
  "# Machine Type Catalog",
  "",
  "- **Source:** `" ++ source ++ "`",
  "- **Generated:** " ++ clockMinutes now,
  "- **Machine types:** " ++ Text.decimal count,
  ""]

/-- The head of a table. -/
def tableHead : List Text := [
  "| Name | vCPUs | Memory (MB) | Scratch disks (GB) | Max PDs | Max PD size (GB) | Status |",
  "|------|------:|------------:|--------------------|--------:|-----------------:|--------|"]

/-- The cells of a row. -/
def cells (m : MachineType) : List Text := [
  "`" ++ m.name ++ "`",
  valueOr dash m.cpus,
  valueOr dash m.memoryMb,
  scratchLabel m,
  valueOr dash m.maximumPersistentDisks,
  valueOr dash m.maximumPersistentDisksSizeGb,
  statusLabel true m]

/-- The row of a machine type. -/
def row (m : MachineType) : Text := "| " ++ List.intercalate " | " (cells m) ++ " |"

/-- The lines of a zone. -/
def zoneLines (zone : Text) (members : List MachineType) : List Text :=
  ("## " ++ zone) :: "" :: (tableHead ++ members.map row ++ [[]])

/-- The lines of a catalog. -/
def lines (now : Moment) (source : Text) (ms : List MachineType) : List Text :=
  preamble now source ms.length ++ (byZone ms).flatMap fun z => zoneLines z.1 z.2

/-- The catalog. -/
def render (now : Moment) (source : Text) (ms : List MachineType) : Except Failure Text := do
  requireShown (ms.flatMap fun m => m.maximumPersistentDisksSizeGb :: shownValues m)
  return List.intercalate "\n" (lines now source ms)

end Markdown
end Report
end MachineCatalog
