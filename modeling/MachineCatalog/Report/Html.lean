/-
# HTML catalogs

A page with a heading, a line on the report, and for each zone a table with a row
for each machine type; the name of a machine type links to its URL.  Everything
that does not belong to the page itself is escaped.
-/

import MachineCatalog.Report.Clock
import MachineCatalog.Report.Labels
import MachineCatalog.Report.Zones

namespace MachineCatalog
namespace Report
namespace Html

/-- A code point as HTML writes it. -/
def escaped (c : CodePoint) : Text :=
  if c = '&' then "&amp;"
  else if c = '<' then "&lt;"
  else if c = '>' then "&gt;"
  else if c = '\'' then "&#39;"
  else if c = '"' then "&#34;"
  else [c]

/-- A text as HTML writes it. -/
def escape (s : Text) : Text := s.flatMap escaped

/-- The lines of the page up to its heading. -/
def headLines : List Text := [
  "",
  "<!DOCTYPE html>",
  "<html lang=\"en\">",
  "<head>",
  "    <meta charset=\"UTF-8\">",
  "    <title>Machine Type Catalog - gcemodel</title>",
  "    <style>",
  "        body \x7b font-family: -apple-system, BlinkMacSystemFont, \"Segoe UI\", Roboto, sans-serif; color: #333; max-width: 1200px; margin: 0 auto; padding: 2rem; background: #f9f9f9; \x7d",
  "        .meta \x7b color: #666; font-size: 0.9rem; margin-bottom: 2rem; \x7d",
  "        table \x7b width: 100%; border-collapse: collapse; background: white; margin-bottom: 2rem; box-shadow: 0 2px 4px rgba(0,0,0,0.1); \x7d",
  "        th, td \x7b padding: 0.6rem 1rem; text-align: left; border-bottom: 1px solid #eee; \x7d",
  "        th \x7b background: #f5f5f5; \x7d",
  "        td.num \x7b text-align: right; \x7d",
  "        .unusable \x7b color: #999; text-decoration: line-through; \x7d",
  "    </style>",
  "</head>",
  "<body>",
  "    <h1>Machine Type Catalog</h1>"]

/-- The line on the report. -/
def metaLine (now : Moment) (source : Text) (count : Nat) : Text :=
  "    <div class=\"meta\">Generated: " ++ escape (clockMinutes now) ++ " | Source: " ++
    escape source ++ " | gcemodel v" ++ escape toolVersion ++ " | " ++ Text.decimal count ++
    " machine types</div>"

/-- The head of the table of a zone. -/
def tableHead (zone : Text) : List Text := [
  "    <h2>" ++ escape zone ++ "</h2>",
  "    <table>",
  "        <thead>",
  "            <tr><th>Name</th><th>vCPUs</th><th>Memory (MB)</th><th>Scratch disks (GB)</th>" ++
    "<th>Max PDs</th><th>Max PD size (GB)</th><th>Status</th></tr>",
  "        </thead>",
  "        <tbody>"]

/-- A cell with a number. -/
def numberCell (v : Value) : Text :=
  "                <td class=\"num\">" ++ escape (valueOr "" v) ++ "</td>"

/-- A cell with a text. -/
def textCell (s : Text) : Text := "                <td>" ++ escape s ++ "</td>"

/-- The tag that opens a row; a machine type that must not be used is marked. -/
def rowStart (m : MachineType) : Text :=
  if m.isUsable then "            <tr>" else "            <tr class=\"unusable\">"

/-- The cell with the name, which links to the machine type. -/
def nameCell (m : MachineType) : Text :=
  "                <td><a href=\"" ++ escape m.machineTypeId.selfLink ++ "\">" ++ escape m.name ++
    "</a></td>"

/-- The row of a machine type.  The lines before and after a row hold blanks. -/
def row (m : MachineType) : List Text := [
  "            ",
  rowStart m,
  nameCell m,
  numberCell m.cpus,
  numberCell m.memoryMb,
  textCell (scratchLabel m),
  numberCell m.maximumPersistentDisks,
  numberCell m.maximumPersistentDisksSizeGb,
  textCell (statusLabel false m),
  "            </tr>"]

/-- The foot of a table. -/
def tableFoot : List Text := ["            ", "        </tbody>", "    </table>"]

/-- The lines of a zone, the first of them blank. -/
def zoneLines (zone : Text) (members : List MachineType) : List Text :=
  "    " :: (tableHead zone ++ members.flatMap row ++ tableFoot)

/-- The last lines of the page. -/
def footLines : List Text := ["    ", "</body>", "</html>"]

/-- The lines of a catalog. -/
def lines (now : Moment) (source : Text) (ms : List MachineType) : List Text :=
  let zones := (byZone ms).flatMap fun z => zoneLines z.1 z.2
  headLines ++ metaLine now source ms.length :: "" :: (zones ++ footLines)

/-- The catalog. -/
def render (now : Moment) (source : Text) (ms : List MachineType) : Except Failure Text := do
  requireShown (ms.flatMap fun m => m.maximumPersistentDisksSizeGb :: shownValues m)
  return List.intercalate "\n" (lines now source ms)

end Html
end Report
end MachineCatalog
