/-
# Numeric ids

A resource id is an integer of any size.  The wire form carries the integer; a
machine type keeps its canonical decimal text, which has no `+`, no leading
zeros and no `-0`.  Reading accepts an integer or a decimal text, an optional
sign and ASCII digits in full.
-/

import MachineCatalog.Failure

namespace MachineCatalog
namespace NumericId

/-- Digits and sign of a decimal id, if the text is one. -/
def decimalParts? (cs : List Char) : Option (Bool × List Char) :=
  let (negative, ds) := Text.splitSign cs
  if ds.isEmpty || !ds.all Text.isAsciiDigit then none else some (negative, ds)

/-- The integer that the wire form carries for an id. -/
def encode (id : Value) : Except Failure Int :=
  match id with
  | .int n => .ok n
  | .text s =>
    match decimalParts? s.chars with
    | none => reject (.malformedId id)
    | some (negative, ds) =>
      if Text.decimalDigitLimit < ds.length then abort .longInteger
      else .ok (Text.withSign negative (Nat.ofDigitChars 10 ds 0))
  | v => reject (.malformedId v)

/-- The canonical decimal text of an id in wire form. -/
def decode (id : Value) : Except Failure Text := do
  let n ← encode id
  if Value.isLongInteger n then abort .longInteger
  return Text.signedDecimal n

end NumericId
end MachineCatalog
