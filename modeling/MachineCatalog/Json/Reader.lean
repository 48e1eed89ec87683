/-
# Reading JSON

The grammar of JSON with three more numbers: `NaN`, `Infinity` and `-Infinity`.
A number with a fraction or an exponent is a `float`, any other an `int`; an
`int` of more than `Text.decimalDigitLimit` digits makes the text unreadable.
Of entries with one key the last value counts, at the place of the first.

An escape for the first half of a surrogate pair joins with one for the second
half after it; a half that stands alone stays one.  Collections nested deeper
than `nestingLimit` are not read, which is what the stack of calls allows at one
depth of calls.
-/

import MachineCatalog.Text.Numeral
import MachineCatalog.Value.Equality

namespace MachineCatalog
namespace Json

/-- Why a text is not read. -/
inductive Problem where
  /-- The text breaks the grammar, or has an integer that is too long. -/
  | malformed
  /-- Collections are nested too deep. -/
  | tooDeep

/-- How deep collections may be nested: what the usual limit of the stack of calls leaves to a
reader that is called from the outermost level.  Called from further down, it has less. -/
def nestingLimit : Nat := 987

/-- The blanks of JSON. -/
def isBlank (c : Char) : Bool := c = ' ' || c = '\t' || c = '\n' || c = '\r'

/-- The text from its first character that is no blank. -/
def skipBlanks (cs : List Char) : List Char := cs.dropWhile isBlank

/-- A piece of a string: a character, or the code unit of a `\u` escape. -/
inductive Piece where
  | char (c : Char)
  | unit (n : Nat)

/-- The character of a short escape. -/
def shortEscape? (c : Char) : Option Char :=
  if c = '"' || c = '\\' || c = '/' then some c
  else if c = 'b' then some '\x08'
  else if c = 'f' then some '\x0c'
  else if c = 'n' then some '\n'
  else if c = 'r' then some '\r'
  else if c = 't' then some '\t'
  else none

/-- The number of four hexadecimal digits. -/
def unitOf? (a b c d : Char) : Option Nat := do
  let w ← Text.hexValue? a
  let x ← Text.hexValue? b
  let y ← Text.hexValue? c
  let z ← Text.hexValue? d
  return ((w * 16 + x) * 16 + y) * 16 + z

/-- The pieces of a string after its opening quote, and the text after the
closing one. -/
def pieces? : List Char → Option (List Piece × List Char)
  | [] => none
  | '"' :: rest => some ([], rest)
  | '\\' :: 'u' :: a :: b :: c :: d :: rest => do
    let n ← unitOf? a b c d
    let (ps, after) ← pieces? rest
    return (.unit n :: ps, after)
  | '\\' :: e :: rest => do
    let c ← shortEscape? e
    let (ps, after) ← pieces? rest
    return (.char c :: ps, after)
  | c :: rest =>
    if c.toNat < 0x20 || c = '\\' then none
    else do
      let (ps, after) ← pieces? rest
      return (.char c :: ps, after)

/-- The text of the pieces, surrogate pairs joined. -/
def joinPieces : List Piece → Text
  | [] => []
  | .char c :: rest => (c : CodePoint) :: joinPieces rest
  | .unit h :: .unit l :: rest =>
    if 0xD800 ≤ h && h < 0xDC00 && 0xDC00 ≤ l && l < 0xE000 then
      .ofNat (0x10000 + (h - 0xD800) * 0x400 + (l - 0xDC00)) :: joinPieces rest
    else .ofNat h :: joinPieces (.unit l :: rest)
  | .unit n :: rest => .ofNat n :: joinPieces rest

/-- What must be there. -/
def required {α : Type} (x : Option α) : Except Problem α :=
  match x with
  | some a => .ok a
  | none => .error .malformed

/-- A string after its opening quote. -/
def string (cs : List Char) : Except Problem (Text × List Char) :=
  required ((pieces? cs).map fun p => (joinPieces p.1, p.2))

/-- The digits of the whole part: a single zero, or digits that start with none. -/
def wholePart? : List Char → Option (List Char × List Char)
  | '0' :: rest => some (['0'], rest)
  | c :: rest =>
    if Text.isAsciiDigit c then
      some (c :: rest.takeWhile Text.isAsciiDigit, rest.dropWhile Text.isAsciiDigit)
    else none
  | [] => none

/-- The digits after a point, if a point and a digit follow. -/
def fraction : List Char → List Char × List Char
  | '.' :: rest =>
    match rest.takeWhile Text.isAsciiDigit with
    | [] => ([], '.' :: rest)
    | ds => (ds, rest.dropWhile Text.isAsciiDigit)
  | cs => ([], cs)

/-- The exponent, if one follows in full. -/
def exponent? (cs : List Char) : Option (Int × List Char) :=
  match cs with
  | e :: rest =>
    if e = 'e' || e = 'E' then
      let (negative, body) := Text.splitSign rest
      match body.takeWhile Text.isAsciiDigit with
      | [] => none
      | ds => some (Text.withSign negative (Nat.ofDigitChars 10 ds 0),
          body.dropWhile Text.isAsciiDigit)
    else none
  | [] => none

/-- A number without its sign. -/
def number? (negative : Bool) (cs : List Char) : Option (Value × List Char) := do
  let (whole, rest) ← wholePart? cs
  let (places, rest) := fraction rest
  let scaled := exponent? rest
  if places.isEmpty && scaled.isNone then
    if Text.decimalDigitLimit < whole.length then none
    else return (.int (Text.withSign negative (Nat.ofDigitChars 10 whole 0)), rest)
  else
    let (exponent, rest) := scaled.getD (0, rest)
    let digits := Nat.ofDigitChars 10 (whole ++ places) 0
    return (.float (Binary64.ofDecimal negative digits (exponent - places.length)), rest)

/-- The mapping of entries in the order read. -/
def mappingOf (entries : List (Text × Value)) : Value :=
  .mapping (entries.foldl (fun es e => Value.put (.text e.1) e.2 es) [])

mutual

/-- A value at the start of the text, around which `depth` more collections may
stand.  The fuel bounds the length of what is read. -/
def value (depth : Nat) : Nat → List Char → Except Problem (Value × List Char)
  | 0, _ => .error .malformed
  | fuel + 1, cs =>
    match cs with
    | '"' :: rest => (string rest).map fun p => (.text p.1, p.2)
    | '[' :: rest =>
      if depth = 0 then .error .tooDeep
      else
        match skipBlanks rest with
        | ']' :: after => .ok (.list [], after)
        | inside => (items (depth - 1) fuel inside).map fun p => (.list p.1, p.2)
    | '\x7b' :: rest =>
      if depth = 0 then .error .tooDeep
      else
        match skipBlanks rest with
        | '\x7d' :: after => .ok (.mapping [], after)
        | inside => (entries (depth - 1) fuel inside).map fun p => (mappingOf p.1, p.2)
    | 'n' :: 'u' :: 'l' :: 'l' :: rest => .ok (.null, rest)
    | 't' :: 'r' :: 'u' :: 'e' :: rest => .ok (.bool true, rest)
    | 'f' :: 'a' :: 'l' :: 's' :: 'e' :: rest => .ok (.bool false, rest)
    | 'N' :: 'a' :: 'N' :: rest => .ok (.float .nan, rest)
    | 'I' :: 'n' :: 'f' :: 'i' :: 'n' :: 'i' :: 't' :: 'y' :: rest =>
      .ok (.float (.infinity false), rest)
    | '-' :: 'I' :: 'n' :: 'f' :: 'i' :: 'n' :: 'i' :: 't' :: 'y' :: rest =>
      .ok (.float (.infinity true), rest)
    | '-' :: rest => required (number? true rest)
    | _ => required (number? false cs)

/-- The members of a list up to its closing bracket. -/
def items (depth : Nat) : Nat → List Char → Except Problem (List Value × List Char)
  | 0, _ => .error .malformed
  | fuel + 1, cs => do
    let (v, rest) ← value depth fuel cs
    match skipBlanks rest with
    | ']' :: after => return ([v], after)
    | ',' :: rest =>
      let (vs, after) ← items depth fuel (skipBlanks rest)
      return (v :: vs, after)
    | _ => .error .malformed

/-- The entries of a mapping up to its closing brace. -/
def entries (depth : Nat) : Nat → List Char → Except Problem (List (Text × Value) × List Char)
  | 0, _ => .error .malformed
  | fuel + 1, cs =>
    match cs with
    | '"' :: rest => do
      let (k, rest) ← string rest
      match skipBlanks rest with
      | ':' :: rest =>
        let (v, rest) ← value depth fuel (skipBlanks rest)
        match skipBlanks rest with
        | '\x7d' :: after => return ([(k, v)], after)
        | ',' :: rest =>
          let (es, after) ← entries depth fuel (skipBlanks rest)
          return ((k, v) :: es, after)
        | _ => .error .malformed
      | _ => .error .malformed
    | _ => .error .malformed

end

/-- The value that the whole text writes, blanks around it left out. -/
def read (cs : List Char) : Except Problem Value := do
  let (v, rest) ← value nestingLimit (2 * cs.length + 2) (skipBlanks cs)
  match skipBlanks rest with
  | [] => return v
  | _ => .error .malformed

end Json
end MachineCatalog
