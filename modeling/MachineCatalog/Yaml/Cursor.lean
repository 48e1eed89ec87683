/-
# A place in a YAML stream

A cursor is the rest of a text together with its place: how many characters
lie before it, and its line and column.  Past the end every character is NUL,
which no stream holds.

Something may be wrong behind the text.  Then reading fails as soon as it looks
there: it looks at every place that it gets to, and further ahead where a rule
depends on what follows.
-/

import MachineCatalog.Yaml.Source

namespace MachineCatalog
namespace Yaml

/-- A line break: line feed, carriage return, next line, or a separator of lines
or paragraphs. -/
def isBreak (c : Char) : Bool :=
  c = '\n' || c = '\r' || c.toNat = 0x85 || c.toNat = 0x2028 || c.toNat = 0x2029

/-- The end of the stream or a line break. -/
def endsLine (c : Char) : Bool := c = '\x00' || isBreak c

/-- The end of the stream, a blank or a line break, tabs not counting as blanks. -/
def endsItem (c : Char) : Bool := c = ' ' || endsLine c

/-- The end of the stream, a blank, a tab or a line break. -/
def endsWord (c : Char) : Bool := c = '\t' || endsItem c

/-- A place in a stream. -/
structure Cursor where
  rest : List Char
  /-- How many characters are left. -/
  left : Nat
  index : Nat
  line : Nat
  column : Nat
  /-- What is wrong behind the text. -/
  beyond : Option Problem

namespace Cursor

/-- The start of a source. -/
def start (s : Source) : Cursor := ⟨s.text, s.text.length, 0, 0, 0, s.beyond⟩

/-- The character `k` places on. -/
def peek (c : Cursor) (k : Nat) : Char := (c.rest.drop k).headD '\x00'

/-- The character at the place. -/
def here (c : Cursor) : Char := c.rest.headD '\x00'

/-- The place after one character.  A byte order mark takes no column. -/
def next (c : Cursor) : Cursor :=
  match c.rest with
  | [] => c
  | x :: rest =>
    let (line, column) :=
      if x = '\r' && rest.head? = some '\n' then (c.line, c.column + 1)
      else if isBreak x then (c.line + 1, 0)
      else if x.toNat = 0xFEFF then (c.line, c.column)
      else (c.line, c.column + 1)
    { c with
      rest := rest
      left := c.left - 1
      index := c.index + 1
      line := line
      column := column }

/-- The place `n` characters on. -/
def skip : Nat → Cursor → Cursor
  | 0, c => c
  | n + 1, c => skip n c.next

/-- The characters up to the first that fails the test, and the place there. -/
def run (p : Char → Bool) (c : Cursor) : List Char × Cursor :=
  let cs := c.rest.takeWhile p
  (cs, skip cs.length c)

/-- The place of the first character that fails the test. -/
def pass (p : Char → Bool) (c : Cursor) : Cursor := (run p c).2

/-- The line break at the place as text, and the place after it.  Only the
separators of lines and paragraphs are kept as they are. -/
def lineBreak (c : Cursor) : List Char × Cursor :=
  if c.here = '\r' && c.peek 1 = '\n' then (['\n'], skip 2 c)
  else if c.here = '\n' || c.here = '\r' || c.here.toNat = 0x85 then (['\n'], c.next)
  else if isBreak c.here then ([c.here], c.next)
  else ([], c)

/-- Looks at the character `k` places on. -/
def look (c : Cursor) (k : Nat) : Except Problem Unit :=
  match c.beyond with
  | none => .ok ()
  | some p => if c.left ≤ k then .error p else .ok ()

/-- The problem of a rule that is broken at the place. -/
def problem (c : Cursor) : Problem :=
  match c.look 0 with
  | .error p => p
  | .ok () => .malformed

/-- Whether a mark that opens or closes a document is at the place. -/
def atDocumentMark (c : Cursor) : Bool :=
  match c.rest with
  | '-' :: '-' :: '-' :: rest | '.' :: '.' :: '.' :: rest => endsWord (rest.headD '\x00')
  | _ => false

/-- Looks for such a mark: at three characters, and at the one behind a mark. -/
def lookForMark (c : Cursor) : Except Problem Unit := do
  c.look 2
  if c.atDocumentMark then c.look 3

/-- The rest of a line that may hold blanks and a comment only, and its end. -/
def restOfLine (c : Cursor) : Except Problem Cursor :=
  let c := c.pass (· = ' ')
  let c := if c.here = '#' then c.pass (!endsLine ·) else c
  if endsLine c.here then .ok c.lineBreak.2 else .error c.problem

end Cursor
end Yaml
end MachineCatalog
