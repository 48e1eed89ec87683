/-
# Shortest decimal texts of binary floating point numbers

A finite number is written with the fewest significant digits, at most
seventeen, that read back as the number; of two such decimals the nearer one is
taken, and the even one of two equally near.  Only the two neighbours of the
number on each decimal grid need a test, and the test is the reader
`Binary64.ofDecimal` itself, so whatever is written reads back.

Between 10⁻⁴ and 10¹⁶ the text is positional, with a digit after the point;
elsewhere it has an exponent of at least two digits.
-/

import MachineCatalog.Number.Binary64
import MachineCatalog.Text.Numeral

namespace MachineCatalog
namespace Binary64

/-- The decimal `digits · 10 ^ exponent`. -/
structure Decimal where
  digits : Nat
  exponent : Int

/-- For a positive number of units, the `p` with `10 ^ (p - 1) ≤ value < 10 ^ p`. -/
def decimalPoint (units : Nat) : Int :=
  ((Nat.toDigits 10 (units * Nat.pow 10 400 / one)).length : Int) - 400

/-- The decimals of `count` digits next to a positive number of units, the nearer
one first. -/
def neighbours (units count : Nat) : List Decimal :=
  let exponent := decimalPoint units - count
  let num := units * Nat.pow 10 (-exponent).toNat
  let den := one * Nat.pow 10 exponent.toNat
  let below := num / den
  let rest := 2 * (num % den)
  let lower : Decimal := ⟨below, exponent⟩
  let upper : Decimal := ⟨below + 1, exponent⟩
  if rest < den || (rest = den && below % 2 = 0) then [lower, upper] else [upper, lower]

/-- Whether a decimal reads back as the positive number of the given rank. -/
def readsAs (rank : Nat) (d : Decimal) : Bool :=
  ofDecimal false d.digits d.exponent = ofRank false rank

/-- The decimals of at most seventeen digits next to the finite number of a positive
rank, those of fewer digits first. -/
def candidates (rank : Nat) : List Decimal :=
  (List.range 17).flatMap fun i => neighbours (unitsOfRank rank) (i + 1)

/-- The finite number of a positive rank in full. -/
def exact (rank : Nat) : Decimal := ⟨unitsOfRank rank * Nat.pow 5 1074, -1074⟩

/-- The decimal that is written for the finite number of a positive rank.  The
exact value stands in when no decimal of seventeen digits reads back. -/
def shortest (rank : Nat) : Decimal :=
  ((candidates rank).find? (readsAs rank)).getD (exact rank)

/-- The digits without zeros at the end, and the place of the point: the value
is `0.digits · 10 ^ point`. -/
def Decimal.normal (d : Decimal) : List Char × Int :=
  let ds := Nat.toDigits 10 d.digits
  let trimmed := (ds.reverse.dropWhile (· = '0')).reverse
  (trimmed, ds.length + d.exponent)

/-- Digits with a point, or with an exponent. -/
def layout (digits : List Char) (point : Int) : List Char :=
  if -4 < point && point ≤ 16 then
    if point ≤ 0 then '0' :: '.' :: List.replicate (-point).toNat '0' ++ digits
    else
      let whole := point.toNat
      if digits.length ≤ whole then
        digits ++ List.replicate (whole - digits.length) '0' ++ ['.', '0']
      else digits.take whole ++ '.' :: digits.drop whole
  else
    let exponent := point - 1
    let mantissa :=
      match digits with
      | [] => ['0']
      | [d] => [d]
      | d :: rest => d :: '.' :: rest
    let sign := if exponent < 0 then '-' else '+'
    mantissa ++ 'e' :: sign :: Text.paddedDigits 10 2 exponent.natAbs

/-- The text of a number. -/
def text : Binary64 → Text
  | .nan => "nan"
  | .signed negative rank =>
    let body :=
      if rank.val = infinityRank then ['i', 'n', 'f']
      else if rank.val = 0 then ['0', '.', '0']
      else
        let (digits, point) := (shortest rank.val).normal
        layout digits point
    Text.ofChars (if negative then '-' :: body else body)

end Binary64
end MachineCatalog
