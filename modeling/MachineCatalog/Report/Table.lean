/-
# Tables for the terminal

A table in a frame, its title centred above it.  A column is as wide as its
widest text, with a blank on both sides; numbers stand at the right.  When all
columns together are wider than the terminal, the widest ones are narrowed.  Texts
in cells may have marks, and the console says what is shown of them.
-/

import MachineCatalog.Markup
import MachineCatalog.Report.Cell
import MachineCatalog.Report.Labels
import MachineCatalog.Report.Zones

namespace MachineCatalog
namespace Report
namespace Table

/-- A column. -/
structure Column where
  title : Text
  side : Side

/-- The columns. -/
def columns : List Column := [
  ⟨"Zone", .left⟩,
  ⟨"Name", .left⟩,
  ⟨"vCPUs", .right⟩,
  ⟨"Memory (MB)", .right⟩,
  ⟨"Scratch (GB)", .left⟩,
  ⟨"Max PDs", .right⟩,
  ⟨"Status", .left⟩]

/-- The color of a state. -/
def statusColor : Status → Text
  | .active => "green"
  | .deprecated => "yellow"
  | .obsolete => "red"
  | .deleted => "bold red"

/-- The state of a machine type, in its color when colors are wanted. -/
def statusCell (colored : Bool) (m : MachineType) : Text :=
  let status := (m.deprecationStatus.map (·.status)).getD .active
  if colored then Markup.styled (statusColor status) status.label else status.label

/-- The texts of a row. -/
def cells (colored : Bool) (m : MachineType) : List Text := [
  m.machineTypeId.zone,
  m.name,
  valueOr "" m.cpus,
  valueOr "" m.memoryMb,
  scratchLabel m,
  valueOr "" m.maximumPersistentDisks,
  statusCell colored m]

/-- The order of rows: by zone, then by name. -/
def rowLe (a b : MachineType) : Bool :=
  if a.machineTypeId.zone = b.machineTypeId.zone then textLe a.name b.name
  else textLe a.machineTypeId.zone b.machineTypeId.zone

/-- The width of the terminal. -/
def terminalWidth : Nat := 200

/-- The width that the columns share, which is all but the bars between them. -/
def sharedWidth : Nat := terminalWidth - (columns.length + 1)

/-- A column with all its texts in one line each, and a blank on both sides. -/
def naturalWidths (rows : List (List Text)) : List Nat :=
  let texts := rows.foldl
    (fun ws row => List.zipWith (fun w cell => max w (Cell.naturalWidth cell)) ws row)
    (columns.map (·.title.length))
  texts.map fun w => min (w + 2) sharedWidth

/-- Takes a total from the widest columns, `count` of them, as evenly as it goes and no more
than `most` from each. -/
def takeFrom (widest most total count : Nat) : List Nat → List Nat
  | [] => []
  | w :: ws =>
    if w = widest then
      let taken := min most (roundHalfEven total count)
      (w - taken) :: takeFrom widest most (total - taken) (count - 1) ws
    else w :: takeFrom widest most total count ws

/-- Narrows the widest columns down to the next narrower one, `steps` times at most, until
all columns together have the width that they share. -/
def narrowed (steps : Nat) (ws : List Nat) : List Nat :=
  match steps with
  | 0 => ws
  | steps + 1 =>
    let excess := ws.foldl (· + ·) 0 - sharedWidth
    if excess = 0 then ws
    else
      let widest := ws.foldl max 0
      let next := (ws.filter (· ≠ widest)).foldl max 0
      narrowed steps (takeFrom widest (min excess (widest - next)) excess (ws.count widest) ws)

/-- The widths of the columns without the blanks on both sides.  Every step of narrowing takes
something from the sum, so that the sum bounds their number. -/
def widths (rows : List (List Text)) : List Nat :=
  let ws := naturalWidths rows
  (narrowed (ws.foldl (· + ·) 0) ws).map (· - 2)

/-- A line of the frame. -/
def rule (first : Text) (stroke : Char) (joint last : Text) (ws : List Nat) : Text :=
  let strokes := ws.map fun w => List.replicate (w + 2) (CodePoint.ofChar stroke)
  first ++ List.intercalate joint strokes ++ last

/-- A line of cells between bars. -/
def barredLine (bar : Text) (pieces : List Text) : Text :=
  let padded := pieces.map fun (piece : Text) => " " ++ piece ++ " "
  bar ++ List.intercalate bar padded ++ bar

/-- The lines of a row.  Where a cell has fewer lines than another, its last ones are
blank. -/
def rowLines (bar : Text) (ws : List Nat) (row : List Text) : List Text :=
  let shapes := List.zipWith (fun (c : Column) (p : Nat × Text) =>
    (p.1, Cell.lines c.side p.1 p.2)) columns (ws.zip row)
  let height := shapes.foldl (fun n s => max n s.2.length) 1
  (List.range height).map fun i =>
    barredLine bar (shapes.map fun s => (s.2[i]?).getD (Text.blanks s.1))

/-- The title in the middle of a line. -/
def titleLine (width : Nat) : Text :=
  let title : Text := "Machine Types"
  let before := (width - title.length) / 2
  Text.blanks before ++ title ++ Text.blanks (width - title.length - before)

/-- The texts of the rows in their order as a console shows them. -/
def shownRows? (cell : Text → Option Text) (colored : Bool) (ms : List MachineType) :
    Option (List (List Text)) :=
  (ms.mergeSort rowLe).mapM fun m => (cells colored m).mapM fun t => (cell t).map Cell.shown

/-- The lines of a table with these rows. -/
def lines (rows : List (List Text)) : List Text :=
  let ws := widths rows
  let width := ws.foldl (fun n w => n + w + 3) 1
  [titleLine width, rule "┏" '━' "┳" "┓" ws] ++
  rowLines "┃" ws (columns.map (·.title)) ++
  [rule "┡" '━' "╇" "┩" ws] ++
  rows.flatMap (rowLines "│" ws) ++
  [rule "└" '─' "┴" "┘" ws]

/-- The table; every line ends in a line feed. -/
def render (cell : Text → Option Text) (colored : Bool) (ms : List MachineType) :
    Except Failure Text := do
  requireShown (ms.flatMap shownValues)
  match shownRows? cell colored ms with
  | none => abort .unfitMarks
  | some rows => return (lines rows).flatMap fun line => line ++ "\n"

end Table
end Report
end MachineCatalog
