/-
# The texts of scalars

A scalar is plain, quoted, or a block.  Line breaks inside a plain or quoted
scalar fold: one becomes a blank, and of several the first is dropped.  A block
keeps its lines (`|`) or folds them (`>`), and its indicators say what becomes
of the breaks at its end.
-/

import MachineCatalog.Text.Numeral
import MachineCatalog.Yaml.Cursor

namespace MachineCatalog
namespace Yaml

/-- The text for a line break and the empty lines after it. -/
def foldBreaks (first : List Char) (later : List Char) : List Char :=
  (if first ≠ ['\n'] then first else if later.isEmpty then [' '] else []) ++ later

namespace Plain

/-- An indicator of flow collections. -/
def isFlowMark (c : Char) : Bool := [',', '[', ']', '\x7b', '\x7d'].contains c

/-- The characters of a plain scalar up to a blank, a line break, or an indicator
that ends it. -/
def word (inFlow : Bool) : List Char → List Char
  | [] => []
  | c :: rest =>
    let follow := rest.headD '\x00'
    if endsWord c then []
    else if c = ':' && (endsWord follow || (inFlow && isFlowMark follow)) then []
    else if inFlow && (c = '?' || isFlowMark c) then []
    else c :: word inFlow rest

/-- The text of empty lines inside a plain scalar, none when a document mark follows
one, and the place after them. -/
def emptyLines : Nat → Cursor → List Char → Option (List Char) × Cursor
  | 0, c, breaks => (some breaks, c)
  | fuel + 1, c, breaks =>
    if c.here = ' ' then emptyLines fuel c.next breaks
    else if isBreak c.here then
      let (b, c) := c.lineBreak
      if c.atDocumentMark then (none, c) else emptyLines fuel c (breaks ++ b)
    else (some breaks, c)

/-- What stands between two words of a plain scalar. -/
structure Gap where
  /-- The text of the gap, empty when the scalar ends here. -/
  text : List Char
  /-- The place after the gap. -/
  after : Cursor
  /-- Whether the gap has a line break. -/
  broken : Bool

/-- The gap after a word. -/
def gap (c : Cursor) : Gap :=
  let (blanks, c) := c.run (· = ' ')
  if isBreak c.here then
    let (first, c) := c.lineBreak
    if c.atDocumentMark then ⟨[], c, true⟩
    else
      match emptyLines c.left c [] with
      | (none, c) => ⟨[], c, true⟩
      | (some later, c) => ⟨foldBreaks first later, c, true⟩
  else ⟨blanks, c, false⟩

/-- The words of a plain scalar; `text` holds those read before, the last character
first.  Outside of flow collections a word on a line of its own must stand at
`indent` or deeper.  The result tells whether the last gap was broken. -/
def words (inFlow : Bool) (indent : Int) : Nat → Cursor → List Char → List Char × Cursor × Bool
  | 0, c, text => (text.reverse, c, false)
  | fuel + 1, c, text =>
    match word inFlow c.rest with
    | [] => (text.reverse, c, false)
    | w =>
      let text := w.reverse ++ text
      let g := gap (c.skip w.length)
      if g.text.isEmpty || g.after.here = '#' || (!inFlow && (g.after.column : Int) < indent) then
        (text.reverse, g.after, g.broken)
      else
        match word inFlow g.after.rest with
        | [] => (text.reverse, g.after, g.broken)
        | _ => words inFlow indent fuel g.after (g.text.reverse ++ text)

/-- A plain scalar: its text, the place after it and after the gap that follows,
and whether that gap is broken. -/
def read (inFlow : Bool) (indent : Int) (c : Cursor) : List Char × Cursor × Bool :=
  words inFlow indent c.left c []

end Plain

namespace Quoted

/-- The character of a short escape. -/
def shortEscape? (c : Char) : Option Char :=
  match c with
  | '0' => some '\x00'
  | 'a' => some '\x07'
  | 'b' => some '\x08'
  | 't' => some '\t'
  | '\t' => some '\t'
  | 'n' => some '\n'
  | 'v' => some '\x0b'
  | 'f' => some '\x0c'
  | 'r' => some '\r'
  | 'e' => some '\x1b'
  | ' ' => some ' '
  | '"' => some '"'
  | '\\' => some '\\'
  | '/' => some '/'
  | 'N' => some (Char.ofNat 0x85)
  | '_' => some (Char.ofNat 0xA0)
  | 'L' => some (Char.ofNat 0x2028)
  | 'P' => some (Char.ofNat 0x2029)
  | _ => none

/-- The number of hexadecimal digits after an escape letter. -/
def codeLength? (c : Char) : Option Nat :=
  match c with
  | 'x' => some 2
  | 'u' => some 4
  | 'U' => some 8
  | _ => none

/-- The number that `count` hexadecimal digits write, and the place after them. -/
def code (count : Nat) (c : Cursor) : Except Problem (Nat × Cursor) := do
  let ds := ((c.rest.take count).map Text.hexValue?).takeWhile Option.isSome
  c.look (min ds.length (count - 1))
  if ds.length < count then throw .malformed
  return (Text.ofDigitValues 16 (ds.filterMap id), c.skip count)

/-- The code point of a code.  Halves of surrogate pairs do not join. -/
def codePoint (n : Nat) : Except Problem CodePoint :=
  if h : n < 0x110000 then .ok ⟨n, h⟩
  else if n < 0x80000000 then .error .badScalar
  else .error .outOfRange

/-- Empty lines inside a quoted scalar, which must hold no document mark. -/
def emptyLines : Nat → Cursor → List Char → Except Problem (List Char × Cursor)
  | 0, c, breaks => .ok (breaks, c)
  | fuel + 1, c, breaks => do
    c.lookForMark
    if c.atDocumentMark then throw .malformed
    let c := c.pass fun x => x = ' ' || x = '\t'
    if isBreak c.here then
      let (b, c) := c.lineBreak
      emptyLines fuel c (breaks ++ b)
    else return (breaks, c)

/-- Blanks and line breaks inside a quoted scalar. -/
def gap (c : Cursor) : Except Problem (List Char × Cursor) := do
  let (blanks, c) := c.run fun x => x = ' ' || x = '\t'
  if c.here = '\x00' then .error c.problem
  else if isBreak c.here then
    let (first, c) := c.lineBreak
    let (later, c) ← emptyLines (c.left + 1) c []
    return (foldBreaks first later, c)
  else return (blanks, c)

/-- An escape after its backslash. -/
def escape (c : Cursor) : Except Problem (Text × Cursor) :=
  match shortEscape? c.here, codeLength? c.here with
  | some x, _ => .ok ([x], c.next)
  | none, some count => do
    let (n, c) ← code count c.next
    let x ← codePoint n
    return ([x], c)
  | none, none =>
    if isBreak c.here then do
      let c := c.lineBreak.2
      let (later, c) ← emptyLines (c.left + 1) c []
      return (Text.ofChars later, c)
    else .error c.problem

/-- The text up to the closing quote, and the place after it; `text` holds what has
been read before, the last code point first. -/
def body (double : Bool) : Nat → Cursor → Text → Except Problem (Text × Cursor)
  | 0, _, _ => .error .malformed
  | fuel + 1, c, text =>
    let x := c.here
    if double && x = '"' then .ok (text.reverse, c.next)
    else if !double && x = '\'' then
      if c.peek 1 = '\'' then body double fuel (c.skip 2) (CodePoint.ofChar '\'' :: text)
      else .ok (text.reverse, c.next)
    else if endsWord x then do
      let (g, c) ← gap c
      body double fuel c ((Text.ofChars g).reverse ++ text)
    else if double && x = '\\' then do
      let (e, c) ← escape c.next
      body double fuel c (e.reverse ++ text)
    else body double fuel c.next (CodePoint.ofChar x :: text)

/-- A quoted scalar at its opening quote. -/
def read (double : Bool) (c : Cursor) : Except Problem (Text × Cursor) :=
  body double (c.left + 1) c.next []

end Quoted

namespace Block

/-- What becomes of the line breaks at the end of a block. -/
inductive Chomping where
  /-- One break stays. -/
  | clip
  /-- None stays. -/
  | strip
  /-- All stay. -/
  | keep

/-- The chomping indicator at the place, if there is one. -/
def chomping? (c : Cursor) : Option Chomping :=
  if c.here = '+' then some .keep else if c.here = '-' then some .strip else none

/-- The indentation indicator at the place, if there is one; zero is none that is
allowed. -/
def increment? (c : Cursor) : Except Problem (Option Nat) :=
  if '0' ≤ c.here && c.here ≤ '9' then
    if c.here = '0' then .error c.problem else .ok (some (c.here.toNat - 48))
  else .ok none

/-- The indicators of a block, in either order. -/
def indicators (c : Cursor) : Except Problem (Chomping × Option Nat × Cursor) :=
  match chomping? c with
  | some chomping => do
    let c := c.next
    let increment ← increment? c
    return (chomping, increment, if increment.isSome then c.next else c)
  | none => do
    match ← increment? c with
    | none => return (.clip, none, c)
    | some n =>
      let c := c.next
      match chomping? c with
      | some chomping => return (chomping, some n, c.next)
      | none => return (.clip, some n, c)

/-- The empty lines before the first line of a block, and the depth of the
deepest of them or of the first line. -/
def detectIndent : Nat → Cursor → List Char → Nat → List Char × Nat × Cursor
  | 0, c, breaks, deepest => (breaks, deepest, c)
  | fuel + 1, c, breaks, deepest =>
    if c.here = ' ' then
      let c := c.next
      detectIndent fuel c breaks (max deepest c.column)
    else if isBreak c.here then
      let (b, c) := c.lineBreak
      detectIndent fuel c (breaks ++ b) deepest
    else (breaks, deepest, c)

/-- Passes blanks up to the given column. -/
def passIndent (indent : Nat) : Nat → Cursor → Cursor
  | 0, c => c
  | fuel + 1, c =>
    if c.column < indent && c.here = ' ' then passIndent indent fuel c.next else c

/-- Empty lines of a block, and the place of the next line at its indent. -/
def emptyLines (indent : Nat) : Nat → Cursor → List Char → List Char × Cursor
  | 0, c, breaks => (breaks, c)
  | fuel + 1, c, breaks =>
    let c := passIndent indent indent c
    if isBreak c.here then
      let (b, c) := c.lineBreak
      emptyLines indent fuel c (breaks ++ b)
    else (breaks, c)

/-- Whether the line at the place starts with a character other than a blank. -/
def startsFlush (c : Cursor) : Bool := !(c.here = ' ' || c.here = '\t')

/-- The lines of a block.  `breaks` are the empty lines before the next line, and
`text` is what has been read before, the last character first.  The result holds
the text, the last line break and the empty lines after it. -/
def lines (folded : Bool) (indent : Nat) :
    Nat → Cursor → List Char → List Char → List Char × List Char × List Char × Cursor
  | 0, c, breaks, text => (text.reverse, [], breaks, c)
  | fuel + 1, c, breaks, text =>
    let flush := startsFlush c
    let (content, c) := c.run (!endsLine ·)
    let text := content.reverse ++ (breaks.reverse ++ text)
    let (ending, c) := c.lineBreak
    let (breaks, c) := emptyLines indent (c.left + 1) c []
    if c.column = indent && c.here ≠ '\x00' then
      let joint :=
        if folded && ending = ['\n'] && flush && startsFlush c then
          if breaks.isEmpty then [' '] else []
        else ending
      lines folded indent fuel c breaks (joint.reverse ++ text)
    else (text.reverse, ending, breaks, c)

/-- A block scalar at its indicator, inside a block at column `parent`. -/
def read (folded : Bool) (parent : Int) (c : Cursor) : Except Problem (List Char × Cursor) := do
  let (chomping, increment, c) ← indicators c.next
  if !endsItem c.here then .error c.problem
  let c ← c.restOfLine
  let least := (max (parent + 1) 1).toNat
  let (breaks, indent, c) :=
    match increment with
    | some n =>
      let indent := least + n - 1
      let (breaks, c) := emptyLines indent (c.left + 1) c []
      (breaks, indent, c)
    | none =>
      let (breaks, deepest, c) := detectIndent (c.left + 1) c [] 0
      (breaks, max least deepest, c)
  let (text, ending, breaks, c) :=
    if c.column = indent && c.here ≠ '\x00' then
      lines folded indent (c.left + 1) c breaks []
    else ([], [], breaks, c)
  let tail :=
    match chomping with
    | .clip => ending
    | .strip => []
    | .keep => ending ++ breaks
  return (text ++ tail, c)

end Block
end Yaml
end MachineCatalog
