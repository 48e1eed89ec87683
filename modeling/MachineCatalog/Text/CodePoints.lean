/-
# Sets of code points

A set of code points is written as their increasing list of change points: the
first entry is the first member, the second the first code point after it that is
no member, and so on.
-/

import MachineCatalog.Text.Basic

namespace MachineCatalog
namespace Text

/-- Membership of a code point in the set with the given change points. -/
def insideOf : List Nat → CodePoint → Bool
  | [], _ => false
  | b :: rest, c => if c.val < b then false else !insideOf rest c

end Text
end MachineCatalog
