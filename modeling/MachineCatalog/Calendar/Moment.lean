/-
# Moments: a date and a time of day

A moment is a wall-clock reading to the microsecond.  With an offset from UTC
it names an instant; without one it does not.
-/

import MachineCatalog.Calendar.Date

namespace MachineCatalog

/-- A time of day to the microsecond. -/
structure TimeOfDay where
  hour : Nat
  minute : Nat
  second : Nat
  micro : Nat
deriving DecidableEq

namespace TimeOfDay

/-- The parts name a time of day. -/
def IsReal (t : TimeOfDay) : Prop :=
  t.hour ≤ 23 ∧ t.minute ≤ 59 ∧ t.second ≤ 59 ∧ t.micro ≤ 999999

instance (t : TimeOfDay) : Decidable t.IsReal := by unfold IsReal; infer_instance

/-- The microseconds from midnight. -/
def micros (t : TimeOfDay) : Nat :=
  ((t.hour * 60 + t.minute) * 60 + t.second) * 1000000 + t.micro

/-- The time of day that many microseconds after midnight. -/
def ofMicros (n : Nat) : TimeOfDay :=
  ⟨n / 3600000000, n / 60000000 % 60, n / 1000000 % 60, n % 1000000⟩

/-- The time as `HH:MM:SS`. -/
def text (t : TimeOfDay) : Text :=
  Text.padded 2 t.hour ++ ":" ++ Text.padded 2 t.minute ++ ":" ++ Text.padded 2 t.second

end TimeOfDay

/-- A date, a time of day and possibly an offset from UTC in minutes. -/
structure Moment where
  date : Date
  time : TimeOfDay
  offset : Option Int
deriving DecidableEq

namespace Moment

/-- The microseconds of one day. -/
def microsPerDay : Nat := 86400000000

/-- The microseconds from 1970-01-01T00:00:00 on the clock that shows the moment. -/
def clockMicros (m : Moment) : Int := m.date.dayNumber * microsPerDay + m.time.micros

/-- The microseconds from 1970-01-01T00:00:00 UTC, of a moment with an offset. -/
def instant? (m : Moment) : Option Int :=
  m.offset.map fun minutes => m.clockMicros - minutes * 60000000

/-- Moments with offsets agree when their instants do, moments without when
their readings do; one with an offset agrees with none without. -/
def agrees (a b : Moment) : Bool :=
  match a.instant?, b.instant? with
  | some i, some j => i = j
  | none, none => a.clockMicros = b.clockMicros
  | _, _ => false

/-- The offset as `+HH:MM` or `-HH:MM`. -/
def offsetText (minutes : Int) : Text :=
  (if minutes < 0 then "-" else "+") ++ Text.padded 2 (minutes.natAbs / 60) ++ ":" ++
    Text.padded 2 (minutes.natAbs % 60)

/-- The moment as `YYYY-MM-DD HH:MM:SS`, with six digits of the second when there
are microseconds, and with its offset. -/
def text (m : Moment) : Text :=
  let fraction : Text := if m.time.micro = 0 then "" else "." ++ Text.padded 6 m.time.micro
  let offset : Text :=
    match m.offset with
    | none => ""
    | some minutes => offsetText minutes
  m.date.text ++ " " ++ m.time.text ++ fraction ++ offset

/-- The moment that many microseconds after 1970-01-01T00:00:00 UTC, read in UTC,
if it falls in the years 1 to 9999. -/
def ofInstant? (micros : Int) : Option Moment :=
  (Date.ofDayNumber? (micros / microsPerDay)).map fun date =>
    ⟨date, TimeOfDay.ofMicros (micros % microsPerDay).toNat, some 0⟩

end Moment
end MachineCatalog
