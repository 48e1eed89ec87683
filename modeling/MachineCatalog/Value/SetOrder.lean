/-
# The order of sets

A set of numbers has its members in the places of a table, and is shown in the
order of the places; an empty text counts as zero there.  Where a number comes to
stand follows from its residue modulo a prime, so that numbers which are the same
have one residue; a place that is taken makes it go on to the next ones, and then
to a place further away.

Members of another sort stay in the order in which they were given.
-/

import MachineCatalog.Value.Equality

namespace MachineCatalog
namespace SetOrder

/-- The modulus of residues, a prime. -/
def modulus : Nat := Nat.pow 2 61 - 1

/-- A word of 64 bits. -/
def wordLimit : Nat := Nat.pow 2 64

/-- The residue of infinity. -/
def infinityResidue : Nat := 314159

/-- A signed residue as a word.  `-1` is no residue; `-2` stands for it. -/
def signedWord (negative : Bool) (residue : Nat) : Nat :=
  if negative && residue ≠ 0 then wordLimit - max residue 2 else residue

/-- The word of a quantity.  The inverse of 2¹⁰⁷⁴, which makes one of the units, is 2²⁴. -/
def word : Quantity → Nat
  | .finite units => signedWord (units < 0) (units.natAbs * Nat.pow 2 24 % modulus)
  | .infinity negative => signedWord negative infinityResidue

/-- The word of a member whose place is known: a number, or an empty text. -/
def wordOf? : Value → Option Nat
  | .text [] => some 0
  | .octets [] => some 0
  | v => v.quantity?.map word

/-- The number of places for the given number of members: eight are enough for four. -/
def placeCount (members : Nat) : Nat :=
  if members ≤ 4 then 8 else Nat.pow 2 ((2 * members).log2 + 1)

/-- How many places after a taken one are tried. -/
def neighbours : Nat := 9

/-- The free place for a word from the place `start` on.  `rest` is what has not yet had a
part in the way; `steps` bounds the way. -/
def freePlace (count : Nat) (taken : Nat → Bool) : Nat → Nat → Nat → Nat
  | 0, _, start => start
  | steps + 1, rest, start =>
    let tried := if start + neighbours < count then neighbours + 1 else 1
    match ((List.range tried).map (start + ·)).find? fun p => !taken p with
    | some p => p
    | none =>
      let rest := rest / 32
      freePlace count taken steps rest ((start * 5 + 1 + rest) % count)

/-- Whether a place is taken. -/
def isTaken (table : Array (Option Value)) (place : Nat) : Bool := (table[place]?.join).isSome

/-- Puts a member with its word into a free place.  The way of a word goes through all places in
turn once its 13 groups of five bits are used up. -/
def putMember (table : Array (Option Value)) (w : Nat) (v : Value) : Array (Option Value) :=
  let count := table.size
  table.setIfInBounds (freePlace count (isTaken table) (count + 13) w (w % count)) (some v)

/-- The members in the order of their places. -/
def arrange (members : List Value) : List Value :=
  match members.mapM wordOf? with
  | none => members
  | some words =>
    let empty : Array (Option Value) := Array.replicate (placeCount members.length) none
    let table := (words.zip members).foldl (fun t m => putMember t m.1 m.2) empty
    table.toList.filterMap id

end SetOrder
end MachineCatalog
