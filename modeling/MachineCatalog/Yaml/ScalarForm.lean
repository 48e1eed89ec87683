/-
# The forms of scalars

A scalar without a tag is a truth value, a number, a timestamp, `null`, a merge
key or a default key when its text has the form of one, and a text otherwise.

* An integer is binary (`0b`), octal (`0`), decimal, hexadecimal (`0x`), or has
  parts of base 60 between colons; a float has a point, and a sign in any
  exponent.  Underscores may stand between digits.
* A timestamp is a date, or a date and a full time, with or without an offset.
-/

import MachineCatalog.Text.Digit

namespace MachineCatalog
namespace Yaml
namespace ScalarForm

/-- The texts of truth values. -/
def truthTexts : List String :=
  ["yes", "Yes", "YES", "no", "No", "NO", "true", "True", "TRUE", "false", "False", "FALSE",
    "on", "On", "ON", "off", "Off", "OFF"]

/-- The texts of `null`. -/
def nullTexts : List String := ["", "~", "null", "Null", "NULL"]

/-- The texts of infinity, without a sign. -/
def infinityTexts : List String := [".inf", ".Inf", ".INF"]

/-- The texts of NaN. -/
def nanTexts : List String := [".nan", ".NaN", ".NAN"]

/-- The indicators that are a form of their own, which has no meaning. -/
def indicatorTexts : List String := ["!", "&", "*"]

/-- A digit or an underscore. -/
def isDigitOrGap (c : Char) : Bool := Text.isAsciiDigit c || c = '_'

/-- The text without its sign. -/
def unsigned (cs : List Char) : List Char :=
  match cs with
  | '-' :: rest | '+' :: rest => rest
  | _ => cs

/-- Removes parts of base 60, each after a colon; at least one. -/
def dropSixties? : Nat → List Char → Option (List Char)
  | 0, _ => none
  | fuel + 1, ':' :: rest =>
    let ds := rest.takeWhile Text.isAsciiDigit
    let after := rest.dropWhile Text.isAsciiDigit
    let fits :=
      match ds with
      | [_] => true
      | [d, _] => d ≤ '5'
      | _ => false
    if !fits then none
    else
      match after with
      | ':' :: _ => dropSixties? fuel after
      | _ => some after
  | _ + 1, _ => none

/-- Nothing, or an exponent with a sign. -/
def endsFloat (cs : List Char) : Bool :=
  match cs with
  | [] => true
  | e :: s :: d :: rest =>
    (e = 'e' || e = 'E') && (s = '-' || s = '+') && (d :: rest).all Text.isAsciiDigit
  | _ => false

/-- The form of a float that starts with a digit. -/
def isDigitFloat (cs : List Char) : Bool :=
  match cs with
  | d :: rest =>
    Text.isAsciiDigit d &&
      match rest.dropWhile isDigitOrGap with
      | '.' :: places => endsFloat (places.dropWhile isDigitOrGap)
      | ':' :: more =>
        match dropSixties? (more.length + 1) (':' :: more) with
        | some ('.' :: places) => places.all isDigitOrGap
        | _ => false
      | _ => false
  | [] => false

/-- The form of a float. -/
def isFloat (cs : List Char) : Bool :=
  isDigitFloat (unsigned cs) ||
    (match cs with
      | '.' :: d :: rest => Text.isAsciiDigit d && endsFloat (rest.dropWhile isDigitOrGap)
      | _ => false) ||
    infinityTexts.contains (String.ofList (unsigned cs)) ||
    nanTexts.contains (String.ofList cs)

/-- The form of an integer without its sign. -/
def isUnsignedInt (cs : List Char) : Bool :=
  match cs with
  | ['0'] => true
  | '0' :: 'b' :: d :: rest => (d :: rest).all fun c => c = '0' || c = '1' || c = '_'
  | '0' :: 'x' :: d :: rest =>
    (d :: rest).all fun c =>
      isDigitOrGap c || ('a' ≤ c && c ≤ 'f') || ('A' ≤ c && c ≤ 'F')
  | '0' :: rest => rest.all fun c => ('0' ≤ c && c ≤ '7') || c = '_'
  | d :: rest =>
    Text.isAsciiDigit d &&
      match rest.dropWhile isDigitOrGap with
      | [] => true
      | more => dropSixties? more.length more = some []
  | [] => false

/-- The form of an integer. -/
def isInt (cs : List Char) : Bool := isUnsignedInt (unsigned cs)

/-- The digits of an offset from UTC. -/
structure OffsetText where
  negative : Bool
  hour : List Char
  minute : List Char

/-- The digits of a time, and of its offset if there is one. -/
structure TimeText where
  hour : List Char
  minute : List Char
  second : List Char
  fraction : List Char
  offset : Option OffsetText

/-- The digits of a timestamp. -/
structure TimestampText where
  year : List Char
  month : List Char
  day : List Char
  time : Option TimeText

/-- One or two digits, and the rest. -/
def upToTwoDigits? (cs : List Char) : Option (List Char × List Char) :=
  match cs with
  | a :: b :: rest =>
    if !Text.isAsciiDigit a then none
    else if Text.isAsciiDigit b then some ([a, b], rest)
    else some ([a], b :: rest)
  | [a] => if Text.isAsciiDigit a then some ([a], []) else none
  | [] => none

/-- Two digits, and the rest. -/
def twoDigits? (cs : List Char) : Option (List Char × List Char) :=
  (upToTwoDigits? cs).filter fun p => p.1.length = 2

/-- The rest after a character that must be there. -/
def after? (c : Char) (cs : List Char) : Option (List Char) :=
  match cs with
  | x :: rest => if x = c then some rest else none
  | [] => none

/-- A blank or a tab. -/
def isGap (c : Char) : Bool := c = ' ' || c = '\t'

/-- What may follow a full time: nothing, or an offset after blanks. -/
def offset? (cs : List Char) : Option (Option OffsetText) :=
  if cs.isEmpty then some none
  else
    match cs.dropWhile isGap with
    | ['Z'] => some (some ⟨false, ['0'], []⟩)
    | sign :: rest =>
      if sign = '+' || sign = '-' then do
        let (hour, rest) ← upToTwoDigits? rest
        match rest with
        | [] => return some ⟨sign = '-', hour, []⟩
        | _ =>
          let rest ← after? ':' rest
          let (minute, rest) ← twoDigits? rest
          if rest.isEmpty then return some ⟨sign = '-', hour, minute⟩ else none
      else none
    | [] => none

/-- A full time after a date: `T`, `t` or blanks, the time and an offset. -/
def time? (cs : List Char) : Option TimeText := do
  let rest ←
    match cs with
    | [] => none
    | c :: rest =>
      if c = 'T' || c = 't' then some rest
      else if isGap c then some (rest.dropWhile isGap)
      else none
  let (hour, rest) ← upToTwoDigits? rest
  let rest ← after? ':' rest
  let (minute, rest) ← twoDigits? rest
  let rest ← after? ':' rest
  let (second, rest) ← twoDigits? rest
  let (fraction, rest) :=
    match rest with
    | '.' :: rest => (rest.takeWhile Text.isAsciiDigit, rest.dropWhile Text.isAsciiDigit)
    | _ => ([], rest)
  let offset ← offset? rest
  return ⟨hour, minute, second, fraction, offset⟩

/-- The parts of a timestamp. -/
def timestamp? (cs : List Char) : Option TimestampText := do
  let year := cs.take 4
  if year.length ≠ 4 || !year.all Text.isAsciiDigit then none
  let rest ← after? '-' (cs.drop 4)
  let (month, rest) ← upToTwoDigits? rest
  let rest ← after? '-' rest
  let (day, rest) ← upToTwoDigits? rest
  if rest.isEmpty then return ⟨year, month, day, none⟩
  let time ← time? rest
  return ⟨year, month, day, some time⟩

/-- The form of a timestamp; a date alone has two digits for month and day. -/
def isTimestamp (cs : List Char) : Bool :=
  match timestamp? cs with
  | none => false
  | some t => t.time.isSome || (t.month.length = 2 && t.day.length = 2)

/-- The text whose form counts: a line feed at the end does not, unless nothing
stands before it. -/
def formText (cs : List Char) : List Char :=
  match cs.reverse with
  | '\n' :: c :: before => (c :: before).reverse
  | _ => cs

end ScalarForm
end Yaml
end MachineCatalog
