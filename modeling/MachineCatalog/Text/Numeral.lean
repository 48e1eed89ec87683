/-
# Written integers

Decimal and hexadecimal texts of natural numbers, and the liberal reading of an
integer: blanks around it, one sign, an optional base mark (`0b`, `0o`, `0x`),
decimal digits of any script, and single underscores between digits.

A decimal text of more than `decimalDigitLimit` digits is never converted to an
integer, and an integer of that size is never written in decimal.
-/

import MachineCatalog.Text.Basic
import MachineCatalog.Text.Digit

namespace MachineCatalog
namespace Text

/-- The greatest number of decimal digits that is converted. -/
def decimalDigitLimit : Nat := 4300

/-- The decimal text of a natural number. -/
def decimal (n : Nat) : Text := ofChars (Nat.toDigits 10 n)

/-- The decimal text of an integer, with `-` in front of a negative one. -/
def signedDecimal (n : Int) : Text :=
  if n < 0 then "-" ++ decimal n.natAbs else decimal n.natAbs

/-- Digits of `n` in the base, with zeros in front up to `width`. -/
def paddedDigits (base width n : Nat) : List Char :=
  let ds := Nat.toDigits base n
  List.replicate (width - ds.length) '0' ++ ds

/-- The decimal text of `n`, with zeros in front up to `width`. -/
def padded (width n : Nat) : Text := ofChars (paddedDigits 10 width n)

/-- The number written by a list of digit values. -/
def ofDigitValues (base : Nat) (ds : List Nat) : Nat := ds.foldl (fun n d => n * base + d) 0

/-- The value of a digit of the base: a decimal digit of any script, or an ASCII
letter for the digits from ten on. -/
def digitIn? (base : Nat) (c : Char) : Option Nat :=
  let d? :=
    match digitValue? c with
    | some d => some d
    | none =>
      if 'a' ≤ c && c ≤ 'z' then some (c.toNat - 87)
      else if 'A' ≤ c && c ≤ 'Z' then some (c.toNat - 55)
      else none
  d?.filter (· < base)

/-- Digit values after the first digit: each may follow one underscore. -/
def laterDigits? (base : Nat) : List Char → Option (List Nat)
  | [] => some []
  | '_' :: c :: rest => do
    let d ← digitIn? base c
    let ds ← laterDigits? base rest
    return d :: ds
  | c :: rest => do
    let d ← digitIn? base c
    let ds ← laterDigits? base rest
    return d :: ds

/-- Digit values of a non-empty numeral with single underscores inside. -/
def digitValues? (base : Nat) : List Char → Option (List Nat)
  | [] => none
  | c :: rest => do
    let d ← digitIn? base c
    let ds ← laterDigits? base rest
    return d :: ds

/-- Cuts blanks at both ends. -/
def trimBlanks (cs : List Char) : List Char :=
  ((cs.dropWhile isBlank).reverse.dropWhile isBlank).reverse

/-- An optional sign and the rest; `true` for a minus. -/
def splitSign : List Char → Bool × List Char
  | '-' :: rest => (true, rest)
  | '+' :: rest => (false, rest)
  | cs => (false, cs)

/-- Removes the mark of the base, and one underscore after it. -/
def dropBaseMark (base : Nat) (cs : List Char) : List Char :=
  match cs with
  | '0' :: m :: rest =>
    let marked := (base = 2 && (m = 'b' || m = 'B')) || (base = 8 && (m = 'o' || m = 'O')) ||
      (base = 16 && (m = 'x' || m = 'X'))
    if marked then
      match rest with
      | '_' :: rest' => rest'
      | _ => rest
    else cs
  | _ => cs

/-- The integer of a sign and a magnitude. -/
def withSign (negative : Bool) (n : Nat) : Int := if negative then -(n : Int) else n

/-- Liberal reading of an integer in the given base. -/
def readInteger? (base : Nat) (cs : List Char) : Option Int := do
  let (negative, body) := splitSign (trimBlanks cs)
  let ds ← digitValues? base (dropBaseMark base body)
  if base = 10 && decimalDigitLimit < ds.length then none
  return withSign negative (ofDigitValues base ds)

/-- Lower-case hexadecimal digits of `n`, at least `width` of them. -/
def hexadecimal (width n : Nat) : Text := ofChars (paddedDigits 16 width n)

/-- The value of one ASCII hexadecimal digit. -/
def hexValue? (c : Char) : Option Nat :=
  if '0' ≤ c && c ≤ '9' then some (c.toNat - 48)
  else if 'a' ≤ c && c ≤ 'f' then some (c.toNat - 87)
  else if 'A' ≤ c && c ≤ 'F' then some (c.toNat - 55)
  else none

end Text
end MachineCatalog
