/-
# Reading timestamps

A timestamp is a date, and after any one character a time of day, and directly
after that an offset from UTC.

* The date is a calendar date `YYYY-MM-DD` or `YYYYMMDD`, or a week date
  `YYYY-Www`, `YYYY-Www-D`, `YYYYWww` or `YYYYWwwD`.
* The time is `hh`, `hh:mm` or `hh:mm:ss`, or the same without colons, and a
  fraction of the second after `.` or `,`.
* The offset is `Z`, or a sign and a time of less than 24 hours.

Without an offset the reading is in UTC.  Before the text is read, a `Z` or `z`
at its end becomes `+00:00`, and the first fraction after `Thh:mm:ss.` gets
exactly six digits.  The parts are found by position in the UTF-8 form of the
text, 0 standing for what lies past its end.  A time that an offset follows may
carry further characters, which are passed over.  Half of a surrogate pair may
stand in the text only as the character between date and time.

The time between an instant and 1970-01-01T00:00:00 UTC is measured in whole days
and a rest, and an instant that is too many days away is out of range.
-/

import MachineCatalog.Calendar.Moment
import MachineCatalog.Failure
import MachineCatalog.Text.Digit

namespace MachineCatalog
namespace Timestamp

/-- The UTF-8 form of a text. -/
def octetsOf (cs : List Char) : List Nat :=
  cs.flatMap fun c => (String.utf8EncodeChar c).map UInt8.toNat

/-- The value of an ASCII digit. -/
def digit? (b : Nat) : Option Nat := if 48 ≤ b ∧ b ≤ 57 then some (b - 48) else none

/-- The number written by the first `count` octets, which must be digits, and the
octets after them. -/
def digits? : Nat → List Nat → Option (Nat × List Nat) :=
  go 0
where
  /-- Reads `count` more digits after those that write `n`. -/
  go (n : Nat) : Nat → List Nat → Option (Nat × List Nat)
    | 0, rest => some (n, rest)
    | _ + 1, [] => none
    | count + 1, b :: rest => do
      let d ← digit? b
      go (n * 10 + d) count rest

/-- How many octets the date takes. -/
def dateWidth? (s : List Nat) : Option Nat :=
  let at_ (i : Nat) := s.getD i 0
  if s.length = 7 then some 7
  else if at_ 4 = 45 then
    if at_ 5 = 87 then
      if at_ 8 = 45 then
        if s.length = 9 then none
        else if (digit? (at_ 10)).isSome then some 8
        else some 10
      else some 8
    else some 10
  else if at_ 4 = 87 then
    let stop := 7 + ((s.drop 7).takeWhile fun b => (digit? b).isSome).length
    if stop < 9 then some stop
    else if stop % 2 = 0 then some 7
    else some 8
  else some 8

/-- Steps over a hyphen, which must be there when `wanted`. -/
def hyphen? (wanted : Bool) (s : List Nat) : Option (List Nat) :=
  if wanted then
    match s with
    | 45 :: rest => some rest
    | _ => none
  else some s

/-- The date that the octets write. -/
def date? (s : List Nat) : Option Date := do
  let (year, rest) ← digits? 4 s
  let separated := rest.head? = some 45
  let rest ← hyphen? separated rest
  match rest with
  | 87 :: rest =>
    let (week, rest) ← digits? 2 rest
    if rest.isEmpty then Date.ofWeek? year week 1
    else
      let rest ← hyphen? separated rest
      let (day, _) ← digits? 1 rest
      Date.ofWeek? year week day
  | _ =>
    let (month, rest) ← digits? 2 rest
    let rest ← hyphen? separated rest
    let (day, _) ← digits? 2 rest
    Date.ofParts? year month day

/-- A time as read: its parts, and whether characters were passed over. -/
structure ClockReading where
  time : TimeOfDay
  junk : Bool

/-- The microseconds of a fraction, from at most six digits of it, and whether
anything but digits follows.  `next` is the octet after `s`. -/
def fraction? (s : List Nat) (next : Nat) : Option (Nat × Bool) := do
  let count := min 6 s.length
  let (n, rest) ← digits? count s
  let rest := rest.dropWhile fun b => (digit? b).isSome
  return (n * Nat.pow 10 (6 - count), rest.headD next ≠ 0)

/-- What follows a two-digit part of a time. -/
inductive AfterPart where
  /-- The time ends here. -/
  | done (junk : Bool)
  /-- The next part starts at these octets. -/
  | part (rest : List Nat)
  /-- The fraction starts at these octets. -/
  | fraction (rest : List Nat)

/-- Decides how a time goes on after a part.  `separated` tells whether colons
stand between the parts, `last` whether the part was the seconds. -/
def afterPart? (separated last : Bool) (s : List Nat) (next : Nat) : Option AfterPart :=
  match s with
  | [] => some (.done (next ≠ 0))
  | [c] => some (.done (c ≠ 0))
  | c :: rest =>
    let onward (rest : List Nat) : AfterPart := if last then .fraction rest else .part rest
    if separated && c = 58 then some (onward rest)
    else if c = 46 || c = 44 then some (.fraction rest)
    else if separated then none
    else some (onward (c :: rest))

/-- The time that the octets write; `next` is the octet after them, 0 at the end
of the text. -/
def clock? (s : List Nat) (next : Nat) : Option ClockReading := do
  let (hour, rest) ← digits? 2 s
  let separated := rest.head? = some 58
  match ← afterPart? separated false rest next with
  | .done junk => return ⟨⟨hour, 0, 0, 0⟩, junk⟩
  | .fraction rest =>
    let (micro, junk) ← fraction? rest next
    return ⟨⟨hour, 0, 0, micro⟩, junk⟩
  | .part rest =>
    let (minute, rest) ← digits? 2 rest
    match ← afterPart? separated false rest next with
    | .done junk => return ⟨⟨hour, minute, 0, 0⟩, junk⟩
    | .fraction rest =>
      let (micro, junk) ← fraction? rest next
      return ⟨⟨hour, minute, 0, micro⟩, junk⟩
    | .part rest =>
      let (second, rest) ← digits? 2 rest
      match ← afterPart? separated true rest next with
      | .done junk => return ⟨⟨hour, minute, second, 0⟩, junk⟩
      | .fraction rest | .part rest =>
        let (micro, junk) ← fraction? rest next
        return ⟨⟨hour, minute, second, micro⟩, junk⟩

/-- The offset in microseconds that the octets after a sign write.  An offset of
no whole second is none, whatever its fraction. -/
def offset? (negative : Bool) (s : List Nat) : Option Int := do
  let reading ← clock? s 0
  let t := reading.time
  let micros := t.micros
  if reading.junk then none
  else if t.hour = 0 ∧ t.minute = 0 ∧ t.second = 0 then return 0
  else if micros < Moment.microsPerDay then
    return if negative then -(micros : Int) else micros
  else none

/-- The time of day, when its parts are in range. -/
def realTime? (t : TimeOfDay) : Option TimeOfDay := if t.IsReal then some t else none

/-- The time of day and the offset in microseconds that the octets write. -/
def time? (s : List Nat) : Option (TimeOfDay × Int) := do
  let body := s.takeWhile fun b => b ≠ 43 && b ≠ 45 && b ≠ 90
  match s.drop body.length with
  | [] =>
    let reading ← clock? body 0
    if reading.junk then none
    let time ← realTime? reading.time
    return (time, 0)
  | 90 :: rest =>
    let reading ← clock? body 90
    if rest.headD 0 ≠ 0 then none
    let time ← realTime? reading.time
    return (time, 0)
  | sign :: rest =>
    let reading ← clock? body sign
    let offset ← offset? (sign = 45) rest
    let time ← realTime? reading.time
    return (time, offset)

/-- How many octets the character that starts with the given one takes. -/
def characterWidth (b : Nat) : Nat :=
  if b < 0x80 then 1 else if b < 0xE0 then 2 else if b < 0xF0 then 3 else 4

/-- The microseconds from 1970-01-01T00:00:00 UTC that the octets write. -/
def instant? (s : List Nat) : Option Int := do
  if s.length < 7 then none
  let width ← dateWidth? s
  let date ← date? (s.take width)
  let day := date.dayNumber * Moment.microsPerDay
  match s.drop width with
  | [] => return day
  | b :: rest =>
    let (time, offset) ← time? ((b :: rest).drop (characterWidth b))
    return day + time.micros - offset

/-- A `Z` or `z` at the end becomes `+00:00`. -/
def zuluToOffset (t : Text) : Text :=
  match t.reverse with
  | [] => t
  | c :: before => if c = 'Z' || c = 'z' then before.reverse ++ "+00:00" else t

/-- Whether the text starts with `Thh:mm:ss.` and a digit; the digits of the time
may be of any script. -/
def startsFraction (t : Text) : Bool :=
  match Text.chars (t.take 11) with
  | 'T' :: a :: b :: ':' :: c :: d :: ':' :: e :: f :: '.' :: g :: _ =>
    [a, b, c, d, e, f].all (fun x => (Text.digitValue? x).isSome) && Text.isAsciiDigit g
  | _ => false

/-- The first fraction after `Thh:mm:ss.` is cut or filled to six digits. -/
def sixDigitFraction : Text → Text
  | [] => []
  | c :: rest =>
    if startsFraction (c :: rest) then
      let isDigit (c : CodePoint) := Text.isAsciiDigit c.toChar
      let places := (rest.drop 9).takeWhile isDigit
      c :: rest.take 9 ++ (places ++ "000000").take 6 ++ (rest.drop 9).dropWhile isDigit
    else c :: sixDigitFraction rest

/-- The places at which the character between date and time can stand. -/
def separatorPlaces : List Nat := [7, 8, 10]

/-- The first of these places that holds half of a surrogate pair gets a `T`. -/
def replaceHalf (t : Text) : Text :=
  match separatorPlaces.find? fun i => t[i]?.any CodePoint.isHalf with
  | some i => t.set i 'T'
  | none => t

/-- The milliseconds from 1970-01-01T00:00:00 UTC that a text writes, rounded
down. -/
def millis? (t : Text) : Option Int :=
  let t := replaceHalf (sixDigitFraction (zuluToOffset t))
  if t.any CodePoint.isHalf then none else (instant? (octetsOf t.chars)).map (· / 1000)

/-- The greatest number of days that is measured. -/
def longestSpan : Nat := 999999999

/-- Whether an instant lies more days before or after 1970-01-01T00:00:00 UTC. -/
def exceedsSpan (millis : Int) : Bool := longestSpan < (millis / 86400000).natAbs

/-- The milliseconds that a value writes as a timestamp. -/
def parse (value : Value) : Except Failure Int :=
  match value with
  | .text s =>
    match millis? s with
    | some millis => if exceedsSpan millis then reject (.timestampRange value) else .ok millis
    | none => reject (.malformedTimestamp value)
  | _ => reject (.malformedTimestamp value)

end Timestamp
end MachineCatalog
