/-
# Values as text

Messages and reports show a value as text: a text stands as it is, and all else
in one fixed notation, in which a text inside a list or a mapping is quoted.  A
collection inside of itself is shown as `[...]` or `{...}`.

No text is made of an integer of more than `Text.decimalDigitLimit` digits.  Values
nested to any depth are shown: that the stack of calls has a limit is left out here.
-/

import MachineCatalog.Number.Shortest
import MachineCatalog.Text.Quoted
import MachineCatalog.Value.Basic

namespace MachineCatalog

/-- A date inside a list or a mapping. -/
def Date.shown (d : Date) : Text :=
  "datetime.date(" ++ Text.decimal d.year ++ ", " ++ Text.decimal d.month ++ ", " ++
    Text.decimal d.day ++ ")"

namespace Moment

/-- The seconds of an offset as a whole number of days and a rest. -/
def shownOffset (minutes : Int) : Text :=
  if minutes = 0 then "datetime.timezone.utc"
  else
    let seconds := minutes * 60
    let days := seconds / 86400
    let rest := (seconds % 86400).toNat
    let parts : List Text :=
      (if days = 0 then [] else ["days=" ++ Text.signedDecimal days]) ++
        (if rest = 0 then [] else ["seconds=" ++ Text.decimal rest])
    "datetime.timezone(datetime.timedelta(" ++ List.intercalate ", " parts ++ "))"

/-- A moment inside a list or a mapping: seconds and microseconds are left out
from the end when they are zero. -/
def shown (m : Moment) : Text :=
  let tail :=
    if m.time.micro ≠ 0 then [m.time.second, m.time.micro]
    else if m.time.second ≠ 0 then [m.time.second]
    else []
  let parts := [m.date.year, m.date.month, m.date.day, m.time.hour, m.time.minute] ++ tail
  let offset : Text :=
    match m.offset with
    | none => ""
    | some minutes => ", tzinfo=" ++ shownOffset minutes
  "datetime.datetime(" ++ List.intercalate ", " (parts.map Text.decimal) ++ offset ++ ")"

end Moment

namespace Value

/-- What a collection is shown as inside of itself. -/
def selfMark : Value → Text
  | .mapping _ => "\x7b...\x7d"
  | _ => "[...]"

/-- What is shown for a label among those of the knots around. -/
def markOf? (around : List (Nat × Text)) (label : Nat) : Option Text :=
  (around.find? fun k => k.1 = label).map (·.2)

mutual

/-- The value as it stands inside the knots around it. -/
def shownIn (around : List (Nat × Text)) : Value → Text
  | .null => "None"
  | .bool b => if b then "True" else "False"
  | .int n => Text.signedDecimal n
  | .float x => x.text
  | .text s => Text.quoted s
  | .octets bs => Text.quotedOctets bs
  | .date d => d.shown
  | .moment m => m.shown
  | .list items => "[" ++ List.intercalate ", " (shownItems around items) ++ "]"
  | .pair a b => "(" ++ shownIn around a ++ ", " ++ shownIn around b ++ ")"
  | .set members =>
    if members.isEmpty then "set()"
    else "\x7b" ++ List.intercalate ", " (shownItems around members) ++ "\x7d"
  | .mapping entries => "\x7b" ++ List.intercalate ", " (shownEntries around entries) ++ "\x7d"
  | .knot label body =>
    match markOf? around label with
    | some mark => mark
    | none => shownIn ((label, body.selfMark) :: around) body
  | .back label => (markOf? around label).getD "..."

/-- The members of a list, each as it stands inside. -/
def shownItems (around : List (Nat × Text)) : List Value → List Text
  | [] => []
  | v :: vs => shownIn around v :: shownItems around vs

/-- The entries of a mapping, each as key and value. -/
def shownEntries (around : List (Nat × Text)) : List (Value × Value) → List Text
  | [] => []
  | (k, v) :: es => (shownIn around k ++ ": " ++ shownIn around v) :: shownEntries around es

end

/-- The value as it stands inside a list or a mapping. -/
def shown (v : Value) : Text := shownIn [] v

/-- The value as text. -/
def toText : Value → Text
  | .text s => s
  | .date d => d.text
  | .moment m => m.text
  | v => v.shown

/-- Whether an integer has more digits than are written. -/
def isLongInteger (n : Int) : Bool := Nat.pow 10 Text.decimalDigitLimit ≤ n.natAbs

mutual

/-- Whether a value is or holds an integer that is too long to be written. -/
def holdsLongInteger : Value → Bool
  | .int n => isLongInteger n
  | .list items => someHoldLongInteger items
  | .pair a b => holdsLongInteger a || holdsLongInteger b
  | .set members => someHoldLongInteger members
  | .mapping entries => entriesHoldLongInteger entries
  | .knot _ body => holdsLongInteger body
  | _ => false

/-- Whether one of some values holds an integer that is too long. -/
def someHoldLongInteger : List Value → Bool
  | [] => false
  | v :: vs => holdsLongInteger v || someHoldLongInteger vs

/-- Whether a key or a value of some entries holds an integer that is too long. -/
def entriesHoldLongInteger : List (Value × Value) → Bool
  | [] => false
  | (k, v) :: es => holdsLongInteger k || holdsLongInteger v || entriesHoldLongInteger es

end

end Value
end MachineCatalog
