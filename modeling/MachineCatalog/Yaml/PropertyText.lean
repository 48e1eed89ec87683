/-
# The texts of directives, anchors and tags

Names are made of ASCII letters, digits, `-` and `_`; a tag is a URI, in which
`%` and two hexadecimal digits stand for an octet of UTF-8.
-/

import MachineCatalog.Text.Numeral
import MachineCatalog.Yaml.Cursor
import MachineCatalog.Yaml.Token

namespace MachineCatalog
namespace Yaml

/-- A character of a name. -/
def isNameChar (c : Char) : Bool :=
  ('0' ≤ c && c ≤ '9') || ('A' ≤ c && c ≤ 'Z') || ('a' ≤ c && c ≤ 'z') || c = '-' || c = '_'

/-- A character of a URI that stands for itself. -/
def isUriChar (c : Char) : Bool :=
  isNameChar c || ";/?:@&=+$,.!~*'()[]".toList.contains c

/-- A name that is not empty. -/
def name? (c : Cursor) : Except Problem (String × Cursor) :=
  match c.run isNameChar with
  | ([], _) => .error c.problem
  | (cs, c) => .ok (String.ofList cs, c)

/-- The octets of a run of `%` escapes, and the place after it. -/
def uriOctets : Nat → Cursor → Except Problem (List UInt8 × Cursor)
  | 0, c => .ok ([], c)
  | fuel + 1, c => do
    if c.here ≠ '%' then return ([], c)
    let c := c.next
    match Text.hexValue? c.here, Text.hexValue? (c.peek 1) with
    | some x, some y =>
      let (bs, after) ← uriOctets fuel (c.skip 2)
      return (UInt8.ofNat (x * 16 + y) :: bs, after)
    | some _, none =>
      c.look 1
      throw .malformed
    | none, _ => throw c.problem

/-- The characters of a URI; `text` holds those read before, the last one first. -/
def uriChars : Nat → Cursor → List Char → Except Problem (List Char × Cursor)
  | 0, c, text => .ok (text.reverse, c)
  | fuel + 1, c, text =>
    if c.here = '%' then do
      let (bs, c) ← uriOctets c.left c
      match String.fromUTF8? (ByteArray.mk bs.toArray) with
      | none => throw c.problem
      | some s => uriChars fuel c (s.toList.reverse ++ text)
    else if isUriChar c.here then uriChars fuel c.next (c.here :: text)
    else .ok (text.reverse, c)

/-- A URI that is not empty. -/
def uri? (c : Cursor) : Except Problem (String × Cursor) := do
  let (cs, after) ← uriChars c.left c []
  if cs.isEmpty && after.index = c.index then .error c.problem
  return (String.ofList cs, after)

/-- A tag handle: `!`, or a name between two `!`. -/
def tagHandle? (c : Cursor) : Except Problem (String × Cursor) :=
  if c.here ≠ '!' then .error c.problem
  else if c.peek 1 = ' ' then .ok ("!", c.next)
  else
    let (cs, after) := c.next.run isNameChar
    if after.here = '!' then .ok (String.ofList ('!' :: cs ++ ['!']), after.next)
    else .error after.problem

/-- The decimal number at the place. -/
def number? (c : Cursor) : Except Problem (Nat × Cursor) :=
  match c.run Text.isAsciiDigit with
  | ([], _) => .error c.problem
  | (ds, c) => do
    c.look 0
    if Text.decimalDigitLimit < ds.length then throw .badScalar
    return (Nat.ofDigitChars 10 ds 0, c)

/-- The version of a `%YAML` directive; its minor part is read and dropped. -/
def version? (c : Cursor) : Except Problem (Token × Cursor) := do
  let (major, c) ← number? (c.pass (· = ' '))
  if c.here ≠ '.' then .error c.problem
  let (_, c) ← number? c.next
  if endsItem c.here then return (.versionDirective major, c) else .error c.problem

/-- The handle and the leading part of a `%TAG` directive. -/
def tagDirective? (c : Cursor) : Except Problem (Token × Cursor) := do
  let (handle, c) ← tagHandle? (c.pass (· = ' '))
  if c.here ≠ ' ' then .error c.problem
  let (leading, c) ← uri? (c.pass (· = ' '))
  if endsItem c.here then return (.tagDirective handle leading, c) else .error c.problem

/-- A directive at its `%`, up to the end of its line. -/
def directive? (c : Cursor) : Except Problem (Token × Cursor) := do
  let (name, c) ← name? c.next
  if !endsItem c.here then .error c.problem
  let (token, c) ←
    if name = "YAML" then version? c
    else if name = "TAG" then tagDirective? c
    else .ok (.otherDirective, c.pass (!endsLine ·))
  let c ← c.restOfLine
  return (token, c)

/-- The name of an anchor or alias after its indicator. -/
def anchorName? (c : Cursor) : Except Problem (String × Cursor) := do
  let (name, c) ← name? c.next
  if endsWord c.here || "?:,]\x7d%@`".toList.contains c.here then return (name, c)
  else .error c.problem

/-- Whether another `!` comes before the tag ends, so that the tag starts with a
handle. -/
def hasHandle (c : Cursor) : Except Problem Bool := do
  let (cs, _) := c.next.run fun x => !(endsItem x || x = '!')
  c.look (cs.length + 1)
  return c.peek (cs.length + 1) = '!'

/-- The text of a tag at its `!`: a URI between `<` and `>`, a single `!`, or a
handle and the rest of a URI. -/
def tagText? (c : Cursor) : Except Problem (Token × Cursor) := do
  if c.peek 1 = '<' then
    let (suffix, c) ← uri? (c.skip 2)
    if c.here = '>' then return (.tag none suffix, c.next) else throw c.problem
  else if endsWord (c.peek 1) then return (.tag none "!", c.next)
  else if ← hasHandle c then
    let (handle, c) ← tagHandle? c
    let (suffix, c) ← uri? c
    return (.tag (some handle) suffix, c)
  else
    let (suffix, c) ← uri? c.next
    return (.tag (some "!") suffix, c)

/-- A tag at its `!`, which a blank or the end of the line must follow. -/
def tag? (c : Cursor) : Except Problem (Token × Cursor) := do
  let (token, c) ← tagText? c
  if endsItem c.here then return (token, c) else .error c.problem

end Yaml
end MachineCatalog
