/-
# Texts in a column

How a text stands in a column of a table.  A tab runs to the next column that is a
multiple of eight.  A line that is wider than the column is broken in front of
words, and a line that is still too wide is cut and ends in `…`.  Sounds and moves
of the cursor are not shown.
-/

import MachineCatalog.Text.Cells
import MachineCatalog.Text.Digit

namespace MachineCatalog
namespace Report

/-- Where the text of a cell stands. -/
inductive Side where
  | left
  | right

namespace Cell

/-- A code point behind which a text goes on in the next line. -/
def isLineEnd (c : CodePoint) : Bool :=
  c.val = 0xA || (0x1C ≤ c.val && c.val ≤ 0x1E) || c.val = 0x85 || c.val = 0x2028 || c.val = 0x2029

/-- A sound or a move of the cursor. -/
def isCommand (c : CodePoint) : Bool :=
  c.val = 7 || c.val = 8 || c.val = 0xB || c.val = 0xC || c.val = 0xD

/-- A text as far as it is shown. -/
def shown (t : Text) : Text := t.filter fun c => !isCommand c

/-- The width of the widest line of a text; a tab has none. -/
def naturalWidth (t : Text) : Nat :=
  let (widest, last) := t.foldl (fun (w : Nat × Nat) c =>
    if isLineEnd c then (max w.1 w.2, 0) else (w.1, w.2 + Text.cellsOf c)) (0, 0)
  max widest last

/-- A line with blanks for its tabs; `place` is the width of what stands before it. -/
def expandTabs (place : Nat) : Text → Text
  | [] => []
  | c :: rest =>
    if c = '\t' then
      let stop := (place / 8 + 1) * 8
      Text.blanks (stop - place) ++ expandTabs stop rest
    else c :: expandTabs (place + Text.cellsOf c) rest

/-- A text without the blanks at its end. -/
def trimEnd (t : Text) : Text := (t.reverse.dropWhile Text.isSpacing).reverse

/-- The words of a line, each with the blanks behind it, the first one also with those
before it.  A line of blanks has none. -/
def words (line : Text) : List Text :=
  match (line.dropWhile Text.isSpacing).splitBy
      fun a b => !Text.isSpacing a || Text.isSpacing b with
  | [] => []
  | w :: ws => (line.takeWhile Text.isSpacing ++ w) :: ws

/-- The lines that hold some words, where `line` is the line so far and `used` is the
width of the words in it. -/
def placeWords (width : Nat) (line : Text) (used : Nat) : List Text → List Text
  | [] => [line]
  | w :: ws =>
    if used + Text.cellCount (trimEnd w) ≤ width then
      placeWords width (line ++ w) (used + Text.cellCount w) ws
    else if line.isEmpty then placeWords width w (Text.cellCount w) ws
    else line :: placeWords width w (Text.cellCount w) ws

/-- The lines into which a line is broken. -/
def brokenLines (width : Nat) (line : Text) : List Text :=
  match words line with
  | [] => [line]
  | ws => placeWords width [] 0 ws

/-- A line without those blanks at its end that are too many. -/
def dropExcess (width : Nat) (line : Text) : Text :=
  let blanks := line.length - (trimEnd line).length
  line.take (line.length - min blanks (line.length - width))

/-- A start of a line, as wide as said; a blank stands for half of a character.  It is
looked for by halving, and with `low` and `high` as the bounds of its length, which are
at most `steps` halvings apart. -/
def startBetween (width : Nat) (line : Text) (steps low high : Nat) : Text :=
  let middle := (low + high) / 2
  let piece := line.take (middle + 1)
  let count := Text.cellCount piece
  match steps with
  | 0 => piece
  | steps + 1 =>
    if count = width then piece
    else if count = width + 1 && piece.getLast?.map Text.cellsOf = some 2 then
      piece.dropLast ++ Text.blanks 1
    else if width < count then startBetween width line steps low middle
    else startBetween width line steps middle high

/-- A start of a line that is wider than said, as wide as said. -/
def start (width : Nat) (line : Text) : Text :=
  startBetween width line (line.length + 1) 0 line.length

/-- A line that is cut when it is too wide. -/
def cut (width : Nat) (line : Text) : Text :=
  if Text.cellCount line ≤ width then line else start (width - 1) line ++ "…"

/-- A line on its side of a column. -/
def fill (side : Side) (width : Nat) (line : Text) : Text :=
  match side with
  | .left =>
    let line := cut width line
    line ++ Text.blanks (width - Text.cellCount line)
  | .right =>
    let line := cut width (trimEnd line)
    Text.blanks (width - Text.cellCount line) ++ line

/-- The lines of a text in a column, all of them as wide as the column. -/
def lines (side : Side) (width : Nat) (t : Text) : List Text :=
  (Text.splitAt (CodePoint.ofChar '\n') t).flatMap fun line =>
    (brokenLines width (expandTabs 0 line)).map fun piece =>
      fill side width (dropExcess width piece)

end Cell
end Report
end MachineCatalog
