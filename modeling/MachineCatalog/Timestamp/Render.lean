/-
# Writing timestamps

Milliseconds from 1970-01-01T00:00:00 UTC are written as
`YYYY-MM-DDTHH:MM:SS.mmm+00:00`.  A number with a fraction is first rounded to
whole microseconds, to the even one when two are equally near, and what is left
below a millisecond is cut.  The years 1 to 9999 can be written.
-/

import MachineCatalog.Calendar.Moment
import MachineCatalog.Failure

namespace MachineCatalog
namespace Timestamp

/-- Microseconds of a finite number of milliseconds: the whole milliseconds count
exactly, the fraction through a rounded product, and their sum is rounded. -/
def microsOfUnits (units : Int) : Int :=
  let whole := units.natAbs / Binary64.one
  let part := Binary64.unitsOfRank (min Binary64.infinityRank
    (Binary64.rankOf (1000 * (units.natAbs % Binary64.one)) 1))
  let micros := roundHalfEven (1000 * whole * Binary64.one + part) Binary64.one
  if units < 0 then -(micros : Int) else micros

/-- The text of an instant given in microseconds, if its year can be written. -/
def renderMicros? (micros : Int) : Option Text :=
  (Moment.ofInstant? micros).map fun m =>
    m.date.text ++ "T" ++ m.time.text ++ "." ++ Text.padded 3 (m.time.micro / 1000) ++ "+00:00"

/-- The text of an instant given in milliseconds, if its year can be written. -/
def renderMillis? (millis : Int) : Option Text := renderMicros? (millis * 1000)

/-- The text of an instant given as a value in milliseconds. -/
def render (millis : Value) : Except Failure Text :=
  let ofText (text : Option Text) : Except Failure Text :=
    match text with
    | some s => .ok s
    | none => reject (.timestampRange millis)
  match millis with
  | .int n => ofText (renderMillis? n)
  | .bool b => ofText (renderMillis? (if b then 1 else 0))
  | .float .nan => abort .nanMillis
  | .float x => ofText (x.units?.bind fun u => renderMicros? (microsOfUnits u))
  | v => abort (.notMillis v)

end Timestamp
end MachineCatalog
