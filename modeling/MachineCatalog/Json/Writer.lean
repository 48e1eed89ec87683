/-
# Writing JSON

Lists and mappings take a line for each member, two blanks deeper than the
bracket; an empty one is `[]` or `{}`.  A string holds printable ASCII, short
escapes, and `\u` escapes of UTF-16 code units for the rest.  A float is its
shortest text, or one of `NaN`, `Infinity`, `-Infinity`.

Dates, octets and sets have no JSON form, nor has a mapping with a key that is
neither text nor number nor `null`, nor a collection that holds itself, nor an
integer that is too long to be written.  Of several such values the first in the
order of writing counts.  Values nested to any depth are written: that the stack of
calls has a limit is left out here.
-/

import MachineCatalog.Failure

namespace MachineCatalog
namespace Json

/-- A `\u` escape. -/
def unitEscape (n : Nat) : Text := "\\u" ++ Text.hexadecimal 4 n

/-- One code point of a string. -/
def escaped (c : CodePoint) : Text :=
  if c = '"' then "\\\""
  else if c = '\\' then "\\\\"
  else if c = '\n' then "\\n"
  else if c = '\r' then "\\r"
  else if c = '\t' then "\\t"
  else if c = '\x08' then "\\b"
  else if c = '\x0c' then "\\f"
  else if 0x20 ≤ c.val && c.val < 0x7F then [c]
  else if c.val < 0x10000 then unitEscape c.val
  else
    let n := c.val - 0x10000
    unitEscape (0xD800 + n / 0x400) ++ unitEscape (0xDC00 + n % 0x400)

/-- A string between quotes. -/
def quoted (s : Text) : Text := "\"" ++ s.flatMap escaped ++ "\""

/-- A float as JSON writes it. -/
def floatText (x : Binary64) : Text :=
  match x with
  | .nan => "NaN"
  | .signed negative rank =>
    if rank.val = Binary64.infinityRank then if negative then "-Infinity" else "Infinity"
    else x.text

/-- An integer as JSON writes it. -/
def intText (n : Int) : Except Failure Text :=
  if Value.isLongInteger n then abort .longInteger else .ok (Text.signedDecimal n)

/-- The string that stands for a key. -/
def keyText : Value → Except Failure Text
  | .text s => .ok s
  | .float x => .ok (floatText x)
  | .bool b => .ok (if b then "true" else "false")
  | .null => .ok "null"
  | .int n => intText n
  | _ => abort .noJsonForm

/-- The start of a line at the given depth. -/
def newLine (depth : Nat) : Text := "\n" ++ Text.blanks (2 * depth)

/-- Members on lines of their own between two brackets. -/
def bracketed (opening closing : Text) (depth : Nat) (members : List Text) : Text :=
  let line := newLine (depth + 1)
  let joint : Text := "," ++ line
  if members.isEmpty then opening ++ closing
  else opening ++ line ++ List.intercalate joint members ++ newLine depth ++ closing

mutual

/-- The text of a value whose bracket is at the given depth, inside knots with the
given labels. -/
def write (around : List Nat) (depth : Nat) : Value → Except Failure Text
  | .null => .ok "null"
  | .bool b => .ok (if b then "true" else "false")
  | .int n => intText n
  | .float x => .ok (floatText x)
  | .text s => .ok (quoted s)
  | .list items => (writeItems around (depth + 1) items).map (bracketed "[" "]" depth)
  | .pair a b => do
    let x ← write around (depth + 1) a
    let y ← write around (depth + 1) b
    return bracketed "[" "]" depth [x, y]
  | .mapping entries =>
    (writeEntries around (depth + 1) entries).map (bracketed "\x7b" "\x7d" depth)
  | .knot label body =>
    if around.contains label then abort .circular else write (label :: around) depth body
  | .back _ => abort .circular
  | .octets _ => abort .noJsonForm
  | .date _ => abort .noJsonForm
  | .moment _ => abort .noJsonForm
  | .set _ => abort .noJsonForm

/-- The texts of the members of a list. -/
def writeItems (around : List Nat) (depth : Nat) : List Value → Except Failure (List Text)
  | [] => .ok []
  | v :: vs => do
    let x ← write around depth v
    let xs ← writeItems around depth vs
    return x :: xs

/-- The texts of the entries of a mapping. -/
def writeEntries (around : List Nat) (depth : Nat) :
    List (Value × Value) → Except Failure (List Text)
  | [] => .ok []
  | (k, v) :: es => do
    let key ← keyText k
    let x ← write around depth v
    let xs ← writeEntries around depth es
    return (quoted key ++ ": " ++ x) :: xs

end

/-- The JSON text of a value. -/
def render (v : Value) : Except Failure Text := write [] 0 v

end Json
end MachineCatalog
