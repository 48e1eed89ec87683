/-
# Describing machine types

The command `describe` reads machine types from files and directories, selects
some of them, and prints a report or writes it to a file.  A machine type that
cannot be read ends the run with exit code 2 unless such are skipped.  A report
in a file replaces what was there, and only a finished report is written.
-/

import MachineCatalog.CommandLine.Arguments
import MachineCatalog.CommandLine.World
import MachineCatalog.Loading.Files
import MachineCatalog.Report.Html
import MachineCatalog.Report.Json
import MachineCatalog.Report.Markdown
import MachineCatalog.Report.Table

namespace MachineCatalog
namespace CommandLine

/-- The machine types at all paths, in order. -/
def collect (files : FileSystem) (skipInvalid : Bool) : List Text → Noted (List MachineType)
  | [] => pure []
  | path :: paths => do
    let ms ←
      if files.contains path then Loading.parsePath files skipInvalid path
      else do
        Noted.tell (.missingPath path)
        pure []
    let more ← collect files skipInvalid paths
    return ms ++ more

/-- The report in a format that can be written to a file; a table is written as
Markdown. -/
def reportText (format : ReportFormat) (now : Moment) (source : Text) (ms : List MachineType) :
    Except Failure Text :=
  match format with
  | .json => Report.Json.render now source ms
  | .html => Report.Html.render now source ms
  | .markdown => Report.Markdown.render now source ms
  | .table => Report.Markdown.render now source ms

namespace DescribeOrder

/-- The zone asked for: the option, or else the settings. -/
def wantedZone (o : DescribeOrder) (settings : Settings) : Value :=
  match o.zone with
  | some zone => .text zone
  | none => settings.zone

/-- Writes a report to a file.  A report that cannot be written as UTF-8 leaves an
empty file. -/
def writeReport (w : World) (path text : Text) : Outcome :=
  match w.files.write? path (text.octets?.getD .empty) with
  | none => .telling w (.unwritable path) (.quiet w 2)
  | some files =>
    let w := { w with files := files }
    if text.octets?.isSome then .telling w (.written path) (.quiet w 0)
    else .failed w (.defect .unpairedHalf)

/-- Prints or writes the report on machine types that have been selected. -/
def deliver (o : DescribeOrder) (w : World) (settings : Settings) (ms : List MachineType) :
    Outcome :=
  let format := o.format.getD settings.format
  if format = .table && o.output.isNone then
    match Report.Table.render w.console.cell o.colored ms with
    | .error e => .failed w e
    | .ok text => .print w text
  else
    match reportText format w.now (List.intercalate ", " o.paths) ms with
    | .error e => .failed w e
    | .ok text =>
      match o.output with
      | some path => writeReport w path text
      | none => .print w (text ++ "\n")

/-- Selects machine types and reports on them. -/
def describe (o : DescribeOrder) (w : World) (settings : Settings) (ms : List MachineType) :
    Outcome :=
  match Report.select ms (o.wantedZone settings) o.usableOnly with
  | .error e => .failed w e
  | .ok [] => .telling w .noneFound (.quiet w 0)
  | .ok chosen => .telling w (.found chosen.length) (o.deliver w settings chosen)

/-- The settings of a run. -/
def settings (o : DescribeOrder) (w : World) : Noted Settings :=
  (Settings.load w.files o.config).printedOn w.console

/-- What a run collects. -/
def collected (o : DescribeOrder) (w : World) : Noted (List MachineType) :=
  (collect w.files o.skipInvalid o.paths).printedOn w.console

/-- How a run goes on with what it has collected. -/
def proceed (o : DescribeOrder) (w : World) (settings : Settings) :
    Except Failure (List MachineType) → Outcome
  | .error (.rejected why) => .telling w (.mappingError why) (.quiet w 2)
  | .error e => .failed w e
  | .ok ms => o.describe w settings ms

/-- Runs the command. -/
def run (o : DescribeOrder) (w : World) : Outcome :=
  let settings := o.settings w
  match settings.outcome with
  | .error e => (Outcome.failed w e).after settings.notices
  | .ok chosen =>
    let collected := o.collected w
    (o.proceed w chosen collected.outcome).after (settings.notices ++ collected.notices)

end DescribeOrder
end CommandLine
end MachineCatalog
