/-
# Binary floating point numbers of 64 bits

The magnitudes of the format `binary64` are ordered, so a number is its sign
and the rank of its magnitude: rank 0 is zero, rank 1 the smallest positive
number, `infinityRank` is infinity.  Every finite magnitude is a natural number
of units, one unit being 2⁻¹⁰⁷⁴; arithmetic and comparison are exact on units,
and a result is rounded once, to the nearest number, a tie to the even rank.
-/

namespace MachineCatalog

/-- The quotient rounded to the nearest natural number, a tie to the even one. -/
def roundHalfEven (n d : Nat) : Nat :=
  let q := n / d
  let r := n % d
  if 2 * r < d then q
  else if d < 2 * r then q + 1
  else q + q % 2

namespace Binary64

/-- The number of magnitudes between two powers of two. -/
def binade : Nat := Nat.pow 2 52

/-- The rank of infinity. -/
def infinityRank : Nat := 2047 * binade

end Binary64

/-- A number of the format `binary64`; all NaNs are one. -/
inductive Binary64 where
  | signed (negative : Bool) (rank : Fin (Binary64.infinityRank + 1))
  | nan
deriving DecidableEq

namespace Binary64

/-- The number of the given sign and rank; ranks above infinity are infinity. -/
def ofRank (negative : Bool) (rank : Nat) : Binary64 :=
  .signed negative ⟨min rank infinityRank, by omega⟩

/-- Positive zero. -/
def zero : Binary64 := ofRank false 0

/-- Infinity of the given sign. -/
def infinity (negative : Bool) : Binary64 := ofRank negative infinityRank

/-- One, in units. -/
def one : Nat := Nat.pow 2 1074

/-- The finite magnitude of a rank, in units. -/
def unitsOfRank (rank : Nat) : Nat :=
  if rank < 2 * binade then rank
  else (binade + rank % binade) * Nat.pow 2 (rank / binade - 1)

/-- The rank of the magnitude nearest to `num / den` units. -/
def rankOf (num den : Nat) : Nat :=
  let k := (num / den).log2 - 52
  k * binade + roundHalfEven num (den * Nat.pow 2 k)

/-- The number nearest to `num / den` units, with the given sign. -/
def ofUnits (negative : Bool) (num den : Nat) : Binary64 := ofRank negative (rankOf num den)

/-- The number nearest to `digits · 10 ^ exponent`.  Beyond 10³¹⁰ and below
10⁻³³⁰ the result is known without computing the power. -/
def ofDecimal (negative : Bool) (digits : Nat) (exponent : Int) : Binary64 :=
  let point := (Nat.toDigits 10 digits).length + exponent
  if digits = 0 || point < -330 then ofRank negative 0
  else if 310 < point then infinity negative
  else ofUnits negative (digits * Nat.pow 10 exponent.toNat * one) (Nat.pow 10 (-exponent).toNat)

/-- The exact value as a signed number of units, of a finite number. -/
def units? : Binary64 → Option Int
  | .nan => none
  | .signed negative rank =>
    if rank.val = infinityRank then none
    else if negative then some (-(unitsOfRank rank.val : Int))
    else some (unitsOfRank rank.val)

/-- Whether the number is neither zero nor minus zero. -/
def isNonzero : Binary64 → Bool
  | .nan => true
  | .signed _ rank => rank.val ≠ 0

/-- The same magnitude with the other sign. -/
def negate : Binary64 → Binary64
  | .nan => .nan
  | .signed negative rank => .signed (!negative) rank

/-- The rounded product. -/
def mul : Binary64 → Binary64 → Binary64
  | .signed s a, .signed t b =>
    let negative := s != t
    if a.val = infinityRank || b.val = infinityRank then
      if a.val = 0 || b.val = 0 then .nan else infinity negative
    else ofUnits negative (unitsOfRank a.val * unitsOfRank b.val) one
  | _, _ => .nan

/-- The rounded sum; a zero sum is negative only when both summands are. -/
def add (x y : Binary64) : Binary64 :=
  match x, y with
  | .signed s _, .signed t _ =>
    match x.units?, y.units? with
    | some u, some v =>
      let sum := u + v
      if sum = 0 then ofRank (s && t) 0
      else ofUnits (sum < 0) sum.natAbs 1
    | none, some _ => x
    | some _, none => y
    | none, none => if s = t then x else .nan
  | _, _ => .nan

/-- The number nearest to an integer. -/
def ofInt (n : Int) : Binary64 := ofUnits (n < 0) (n.natAbs * one) 1

end Binary64
end MachineCatalog
