/-
# Decimal digits and blanks of all scripts

The decimal digits of Unicode 14 (general category `Nd`) come in runs of ten,
each run starting at the digit zero of one script.  The blanks are the
characters with the property `White_Space`.
-/

import MachineCatalog.Text.Basic

namespace MachineCatalog
namespace Text

/-- The digits zero, one for each run of ten. -/
def digitZeros : List Nat := [
  48, 1632, 1776, 1984, 2406, 2534, 2662, 2790, 2918, 3046, 3174, 3302, 3430, 3558, 3664, 3792,
  3872, 4160, 4240, 6112, 6160, 6470, 6608, 6784, 6800, 6992, 7088, 7232, 7248, 42528, 43216,
  43264, 43472, 43504, 43600, 44016, 65296, 66720, 68912, 69734, 69872, 69942, 70096, 70384,
  70736, 70864, 71248, 71360, 71472, 71904, 72016, 72784, 73040, 73120, 92768, 92864, 93008,
  120782, 120792, 120802, 120812, 120822, 123200, 123632, 125264, 130032]

/-- The value of a decimal digit of any script. -/
def digitValue? (c : Char) : Option Nat :=
  (digitZeros.find? fun z => z ≤ c.toNat && c.toNat < z + 10).map (c.toNat - ·)

/-- The digits `0` to `9` alone. -/
def isAsciiDigit (c : Char) : Bool := '0' ≤ c && c ≤ '9'

/-- A character with the property `White_Space`. -/
def isBlank (c : Char) : Bool :=
  let n := c.toNat
  (9 ≤ n && n ≤ 13) || n = 0x20 || n = 0x85 || n = 0xA0 || n = 0x1680 ||
    (0x2000 ≤ n && n ≤ 0x200A) || n = 0x2028 || n = 0x2029 || n = 0x202F || n = 0x205F ||
    n = 0x3000

/-- A blank, or a separator of information. -/
def isSpacing (c : CodePoint) : Bool :=
  isBlank c.toChar || (0x1C ≤ c.val && c.val ≤ 0x1F)

/-- A text without the blanks at both ends. -/
def trimmed (t : Text) : Text :=
  ((t.dropWhile isSpacing).reverse.dropWhile isSpacing).reverse

end Text
end MachineCatalog
