/-
# The values of scalars

What the text of a scalar denotes under a tag.
-/

import MachineCatalog.Text.Lowercase
import MachineCatalog.Text.Numeral
import MachineCatalog.Value.Basic
import MachineCatalog.Yaml.Problem
import MachineCatalog.Yaml.Tag

namespace MachineCatalog
namespace Yaml
namespace ScalarValue

/-- The parts of a text between colons. -/
def colonParts : List Char → List (List Char)
  | [] => [[]]
  | c :: rest =>
    if c = ':' then [] :: colonParts rest
    else
      match colonParts rest with
      | [] => [[c]]
      | s :: more => (c :: s) :: more

/-- A value that must exist. -/
def required {α : Type} (x : Option α) : Except Problem α :=
  match x with
  | some a => .ok a
  | none => .error .badScalar

/-- The integer that a text without underscores and sign writes. -/
def magnitude (body : List Char) : Except Problem Int :=
  match body with
  | [] => .error .emptyNumber
  | ['0'] => .ok 0
  | '0' :: 'b' :: rest => required (Text.readInteger? 2 rest)
  | '0' :: 'x' :: rest => required (Text.readInteger? 16 rest)
  | '0' :: _ => required (Text.readInteger? 8 body)
  | _ =>
    if body.contains ':' then do
      let parts ← (colonParts body).mapM fun part => required (Text.readInteger? 10 part)
      return parts.foldl (fun n d => n * 60 + d) 0
    else required (Text.readInteger? 10 body)

/-- An integer. -/
def int (text : List Char) : Except Problem Value :=
  match text.filter (· ≠ '_') with
  | [] => .error .emptyNumber
  | cs => do
    let (negative, body) := Text.splitSign cs
    let n ← magnitude body
    return .int (if negative then -n else n)

/-- Decimal digits of any script at the start of a text, and the rest. -/
def digitRun : List Char → List Nat × List Char
  | [] => ([], [])
  | c :: rest =>
    match Text.digitValue? c with
    | some d =>
      let (ds, after) := digitRun rest
      (d :: ds, after)
    | none => ([], c :: rest)

/-- The exponent at the end of a float. -/
def exponent? (cs : List Char) : Option Int :=
  match cs with
  | [] => some 0
  | e :: rest =>
    if e = 'e' || e = 'E' then
      let (negative, body) := Text.splitSign rest
      match digitRun body with
      | ([], _) => none
      | (ds, []) => some (Text.withSign negative (Text.ofDigitValues 10 ds))
      | _ => none
    else none

/-- A decimal number with a point or an exponent or neither, without its sign. -/
def decimalFloat? (negative : Bool) (cs : List Char) : Option Binary64 := do
  let (whole, rest) := digitRun cs
  let (places, rest) :=
    match rest with
    | '.' :: rest => digitRun rest
    | _ => ([], rest)
  if whole.isEmpty && places.isEmpty then none
  let exponent ← exponent? rest
  return Binary64.ofDecimal negative (Text.ofDigitValues 10 (whole ++ places))
    (exponent - places.length)

/-- Liberal reading of a float: blanks around it, a sign, a decimal number or the
name of infinity or NaN. -/
def readFloat? (cs : List Char) : Option Binary64 :=
  let (negative, body) := Text.splitSign (Text.trimBlanks cs)
  let name := Text.lowercase (Text.ofChars body)
  if name = "inf" || name = "infinity" then some (.infinity negative)
  else if name = "nan" then some .nan
  else decimalFloat? negative body

/-- The sum of the parts of base 60, the last part first, each product and sum
rounded; the weight of a part must be one that a float can have. -/
def sumSixties (parts : List Binary64) : Except Problem Binary64 :=
  go .zero 1 parts.reverse
where
  /-- Adds parts with weights from `weight` on. -/
  go (sum : Binary64) (weight : Int) : List Binary64 → Except Problem Binary64
    | [] => .ok sum
    | d :: ds =>
      let w := Binary64.ofInt weight
      if w = .infinity false then .error .outOfRange
      else go (sum.add (d.mul w)) (weight * 60) ds

/-- The float that a text without underscores and sign writes. -/
def floatMagnitude (body : List Char) : Except Problem Binary64 :=
  if body = ".inf".toList then .ok (.infinity false)
  else if body = ".nan".toList then .ok .nan
  else if body.contains ':' then do
    let parts ← (colonParts body).mapM fun part => required (readFloat? part)
    sumSixties parts
  else required (readFloat? body)

/-- The text of a float in lower case and without underscores. -/
def floatText (text : Text) : List Char :=
  Text.chars (Text.lowercase (text.filter fun c => c ≠ '_'))

/-- A float. -/
def float (text : Text) : Except Problem Value :=
  match floatText text with
  | [] => .error .emptyNumber
  | cs => do
    let (negative, body) := Text.splitSign cs
    let x ← floatMagnitude body
    return .float (if negative then x.negate else x)

/-- Whether a float is given by the name of NaN. -/
def isNamedNan (text : Text) : Bool := (Text.splitSign (floatText text)).2 = ".nan".toList

/-- The texts of true in lower case. -/
def trueTexts : List Text := ["yes", "true", "on"]

/-- The texts of false in lower case. -/
def falseTexts : List Text := ["no", "false", "off"]

/-- A truth value. -/
def truth (text : Text) : Except Problem Value :=
  let name := Text.lowercase text
  if trueTexts.contains name then .ok (.bool true)
  else if falseTexts.contains name then .ok (.bool false)
  else .error .unknownTruth

/-- The number of some ASCII digits, 0 for none. -/
def digitsValue (ds : List Char) : Nat := Nat.ofDigitChars 10 ds 0

/-- The offset in minutes, which must be less than a day. -/
def offsetMinutes (o : ScalarForm.OffsetText) : Except Problem Int :=
  let minutes := digitsValue o.hour * 60 + digitsValue o.minute
  if minutes < 1440 then .ok (if o.negative then -(minutes : Int) else minutes)
  else .error .badScalar

/-- A timestamp: a date, or a moment when there is a time. -/
def timestamp (text : List Char) : Except Problem Value :=
  let text := if text.getLast? = some '\n' then text.dropLast else text
  match ScalarForm.timestamp? text with
  | none => .error .notTimestamp
  | some t => do
    let date? := Date.ofParts? (digitsValue t.year) (digitsValue t.month) (digitsValue t.day)
    match t.time with
    | none =>
      let date ← required date?
      return .date date
    | some time =>
      let micro := digitsValue ((time.fraction ++ List.replicate 6 '0').take 6)
      let clock : TimeOfDay :=
        ⟨digitsValue time.hour, digitsValue time.minute, digitsValue time.second, micro⟩
      let offset ←
        match time.offset with
        | none => .ok none
        | some o => (offsetMinutes o).map some
      let date ← required date?
      if clock.IsReal then return .moment ⟨date, clock, offset⟩ else .error .badScalar

/-- The value of a character of the base 64. -/
def sextet? (c : Char) : Option Nat :=
  if 'A' ≤ c && c ≤ 'Z' then some (c.toNat - 65)
  else if 'a' ≤ c && c ≤ 'z' then some (c.toNat - 71)
  else if '0' ≤ c && c ≤ '9' then some (c.toNat + 4)
  else if c = '+' then some 62
  else if c = '/' then some 63
  else none

/-- The octets of a text in base 64.  `place` counts the sextets since the last
whole group, `left` holds the bits not yet written, `pads` the padding seen. -/
def base64? (place left pads : Nat) : List Char → Option (List UInt8)
  | [] => if place = 0 then some [] else none
  | '=' :: rest =>
    if 2 ≤ place && 4 ≤ place + (pads + 1) then some []
    else base64? place left (if 2 ≤ place then pads + 1 else pads) rest
  | c :: rest =>
    match sextet? c with
    | none => base64? place left pads rest
    | some v =>
      let octet (n : Nat) (tail : Option (List UInt8)) := tail.map (UInt8.ofNat n :: ·)
      match place with
      | 0 => base64? 1 v 0 rest
      | 1 => octet (left * 4 + v / 16) (base64? 2 (v % 16) 0 rest)
      | 2 => octet (left * 16 + v / 4) (base64? 3 (v % 4) 0 rest)
      | _ => octet (left * 64 + v) (base64? 0 0 0 rest)

/-- Octets in base 64; the text must be ASCII. -/
def octets (text : List Char) : Except Problem Value :=
  if text.any fun c => 0x80 ≤ c.toNat then .error .malformed
  else
    match base64? 0 0 0 text with
    | some bs => .ok (.octets bs)
    | none => .error .malformed

/-- The value of a scalar under a tag for scalars. -/
def ofText (tag : Tag) (text : Text) : Except Problem Value :=
  match tag with
  | .null => .ok .null
  | .truth => truth text
  | .int => int text.chars
  | .float => float text
  | .octets => octets text.chars
  | .timestamp => timestamp text.chars
  | .text => .ok (.text text)
  | .orderedPairs | .pairs | .set | .list | .mapping => .error .malformed
  | .merge | .default | .unknown => .error .malformed

end ScalarValue
end Yaml
end MachineCatalog
