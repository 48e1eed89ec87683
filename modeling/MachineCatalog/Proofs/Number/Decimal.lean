/-
# Decimals as binary floating point numbers

A decimal is read as the magnitude nearest to it (`Binary64.ofDecimal_eq`).  Which one
that is depends on the quantity alone: the rank nearest to a ratio is that of every equal
ratio (`Binary64.rankOf_eq_of_ratio`), so zeros may be moved from the digits to the
exponent (`Binary64.decimalRank_mul_pow`).

Every magnitude is nearest to itself (`Binary64.rankOf_unitsOfRank`), and is a decimal in
full.  So the shortest decimal of a magnitude always reads back as it, whether seventeen
digits are enough or not (`Binary64.decimalRank_shortest`).
-/

import MachineCatalog.Number.Shortest
import Mathlib.Tactic.Positivity
import Mathlib.Tactic.Ring

namespace MachineCatalog

/-! ### Rounding -/

theorem roundHalfEven_mul_right {c : Nat} (hc : 0 < c) (n d : Nat) :
    roundHalfEven (n * c) (d * c) = roundHalfEven n d := by
  have hlt (a b : Nat) : 2 * (a * c) < b * c ↔ 2 * a < b := by
    rw [← Nat.mul_assoc, Nat.mul_lt_mul_right hc]
  have hgt (a b : Nat) : b * c < 2 * (a * c) ↔ b < 2 * a := by
    rw [← Nat.mul_assoc, Nat.mul_lt_mul_right hc]
  simp only [roundHalfEven, Nat.mul_div_mul_right _ _ hc, Nat.mul_mod_mul_right, hlt, hgt]

/-- What needs no rounding stays. -/
theorem roundHalfEven_mul_self {d : Nat} (hd : 0 < d) (n : Nat) : roundHalfEven (n * d) d = n := by
  simp [roundHalfEven, Nat.mul_div_cancel n hd, hd]

namespace Binary64

/-! ### Ranks of ratios -/

theorem rankOf_mul_right {c : Nat} (hc : 0 < c) (num den : Nat) :
    rankOf (num * c) (den * c) = rankOf num den := by
  simp only [rankOf, Nat.mul_div_mul_right _ _ hc, Nat.mul_right_comm den c,
    roundHalfEven_mul_right hc]

/-- **Equal ratios have one rank.** -/
theorem rankOf_eq_of_ratio {num den num' den' : Nat} (hd : 0 < den) (hd' : 0 < den')
    (h : num * den' = num' * den) : rankOf num den = rankOf num' den' := by
  rw [← rankOf_mul_right hd' num den, h, Nat.mul_comm den, rankOf_mul_right hd]

/-- **A magnitude is nearest to itself.** -/
theorem rankOf_unitsOfRank (rank : Nat) : rankOf (unitsOfRank rank) 1 = rank := by
  have hb : 0 < binade := by decide
  have hbinade : binade = 2 ^ 52 := rfl
  rw [unitsOfRank]
  split_ifs with hsmall
  · have hk : rank.log2 - 52 = 0 := by
      rcases Nat.eq_zero_or_pos rank with rfl | hpos
      · decide
      · have hlog := (Nat.log2_lt hpos.ne').2 (show rank < 2 ^ 53 by omega)
        omega
    have hself := roundHalfEven_mul_self Nat.one_pos rank
    rw [Nat.mul_one] at hself
    simp only [rankOf, Nat.div_one, hk, Nat.pow_eq, Nat.pow_zero, Nat.mul_one, Nat.zero_mul,
      Nat.zero_add, hself]
  · obtain ⟨e, he⟩ : ∃ e, rank / binade = e + 1 :=
      Nat.exists_eq_add_of_le' ((Nat.one_le_div_iff hb).2 (by omega))
    have hmod := Nat.mod_lt rank hb
    have hpow : 0 < 2 ^ e := Nat.two_pow_pos e
    -- the leading bit of the units is that of the mantissa, moved up by the exponent
    have hlog : ((binade + rank % binade) * 2 ^ e).log2 = 52 + e := by
      rw [Nat.log2_eq_iff (by positivity), hbinade, Nat.pow_add, Nat.pow_add, Nat.pow_add,
        Nat.mul_right_comm]
      constructor
      · exact Nat.mul_le_mul_right _ (by omega)
      · exact Nat.mul_lt_mul_of_pos_right (by omega) hpow
    have hk : 52 + e - 52 = e := by omega
    simp only [rankOf, he, Nat.add_sub_cancel, Nat.div_one, Nat.pow_eq, hlog, hk, Nat.one_mul,
      roundHalfEven_mul_self hpow]
    have hdiv := Nat.div_add_mod' rank binade
    rw [he, Nat.add_mul] at hdiv
    omega

/-! ### Decimals -/

/-- The rank of the magnitude that a decimal is read as. -/
def decimalRank (digits : Nat) (exponent : Int) : Nat :=
  let point := (Nat.toDigits 10 digits).length + exponent
  if digits = 0 || point < -330 then 0
  else if 310 < point then infinityRank
  else rankOf (digits * Nat.pow 10 exponent.toNat * one) (Nat.pow 10 (-exponent).toNat)

/-- **The sign of a decimal is apart from its magnitude.** -/
theorem ofDecimal_eq (negative : Bool) (digits : Nat) (exponent : Int) :
    ofDecimal negative digits exponent = ofRank negative (decimalRank digits exponent) := by
  simp only [ofDecimal, decimalRank]
  split_ifs <;> rfl

theorem decimalRank_zero (exponent : Int) : decimalRank 0 exponent = 0 := by
  simp [decimalRank]

/-- A factor of ten is a zero at the end. -/
theorem toDigits_mul_pow {n : Nat} (hn : 0 < n) (k : Nat) :
    Nat.toDigits 10 (n * 10 ^ k) = Nat.toDigits 10 n ++ List.replicate k '0' := by
  induction k with
  | zero => simp
  | succ k ih =>
    have hpos : 0 < n * 10 ^ k := by positivity
    rw [Nat.pow_succ, ← Nat.mul_assoc, Nat.toDigits_of_base_le (by decide) (by omega),
      Nat.mul_div_cancel _ (by decide), ih, Nat.mul_mod_left, List.replicate_succ',
      List.append_assoc]
    rfl

/-- **Zeros at the end of the digits count for the exponent.** -/
theorem decimalRank_mul_pow {n : Nat} (hn : 0 < n) (k : Nat) (e : Int) :
    decimalRank (n * 10 ^ k) e = decimalRank n (e + k) := by
  have hpos : 0 < n * 10 ^ k := by positivity
  have hpoint : ((Nat.toDigits 10 (n * 10 ^ k)).length : Int) + e =
      (Nat.toDigits 10 n).length + (e + k) := by
    rw [toDigits_mul_pow hn, List.length_append, List.length_replicate]
    omega
  have hrank : rankOf (n * 10 ^ k * Nat.pow 10 e.toNat * one) (Nat.pow 10 (-e).toNat) =
      rankOf (n * Nat.pow 10 (e + k).toNat * one) (Nat.pow 10 (-(e + k)).toNat) := by
    refine rankOf_eq_of_ratio (Nat.pow_pos (by decide)) (Nat.pow_pos (by decide)) ?_
    -- both sides are `n * one` times one power of ten
    have hexp : k + e.toNat + (-(e + k)).toNat = (e + k).toNat + (-e).toNat := by omega
    have hten : 10 ^ k * 10 ^ e.toNat * 10 ^ (-(e + k)).toNat =
        10 ^ (e + k).toNat * 10 ^ (-e).toNat := by
      rw [← Nat.pow_add, ← Nat.pow_add, hexp, Nat.pow_add]
    simp only [Nat.pow_eq]
    calc n * 10 ^ k * 10 ^ e.toNat * one * 10 ^ (-(e + k)).toNat
        = n * one * (10 ^ k * 10 ^ e.toNat * 10 ^ (-(e + k)).toNat) := by ring
      _ = n * 10 ^ (e + k).toNat * one * 10 ^ (-e).toNat := by rw [hten]; ring
  simp only [decimalRank, hpoint, hrank, hpos.ne', hn.ne']

/-! ### The shortest decimal -/

theorem ofRank_eq_iff {negative : Bool} {a b : Nat} :
    ofRank negative a = ofRank negative b ↔ min a infinityRank = min b infinityRank := by
  simp [ofRank]

theorem readsAs_iff {rank : Nat} (h : rank < infinityRank) (d : Decimal) :
    readsAs rank d = true ↔ decimalRank d.digits d.exponent = rank := by
  rw [readsAs, decide_eq_true_iff, ofDecimal_eq, ofRank_eq_iff]
  omega

theorem unitsOfRank_pos {rank : Nat} (h : 0 < rank) : 0 < unitsOfRank rank := by
  rw [unitsOfRank]
  split_ifs
  · exact h
  · exact Nat.mul_pos (Nat.add_pos_left (by decide) _) (Nat.pow_pos (by decide))

theorem unitsOfRank_lt {rank e : Nat} (h : rank < (e + 2) * binade) :
    unitsOfRank rank < 2 * binade * 2 ^ e := by
  have hb : 0 < binade := by decide
  rw [unitsOfRank]
  split_ifs with hsmall
  · exact hsmall.trans_le (Nat.le_mul_of_pos_right _ (Nat.two_pow_pos e))
  · have hexp : rank / binade < e + 2 := (Nat.div_lt_iff_lt_mul hb).2 h
    have hmod := Nat.mod_lt rank hb
    calc (binade + rank % binade) * 2 ^ (rank / binade - 1)
        < 2 * binade * 2 ^ (rank / binade - 1) :=
          Nat.mul_lt_mul_of_pos_right (by omega) (Nat.two_pow_pos _)
      _ ≤ 2 * binade * 2 ^ e :=
          Nat.mul_le_mul_left _ (Nat.pow_le_pow_right (by decide) (by omega))

/-- How many digits a multiple of a power of five has. -/
theorem length_toDigits_exact {rank e five low high : Nat} (h₀ : 0 < rank)
    (h : rank < (e + 2) * binade) (hpos : 0 < five) (hl : 0 < low) (hh : 0 < high)
    (hlow : 10 ^ low ≤ five) (hhigh : 2 * binade * 2 ^ e * five ≤ 10 ^ high) :
    low < (Nat.toDigits 10 (unitsOfRank rank * five)).length ∧
      (Nat.toDigits 10 (unitsOfRank rank * five)).length ≤ high := by
  have hmul := Nat.mul_lt_mul_of_pos_right (unitsOfRank_lt h) hpos
  rw [← Nat.not_le, Nat.length_toDigits_le_iff (by decide) hl, Nat.not_lt,
    Nat.length_toDigits_le_iff (by decide) hh]
  exact ⟨hlow.trans (Nat.le_mul_of_pos_left _ (unitsOfRank_pos h₀)), hmul.trans_le hhigh⟩

theorem rankOf_exact {rank five ten : Nat} (hten : five * one = ten) (hpos : 0 < ten) :
    rankOf (unitsOfRank rank * five * one) ten = rank := by
  refine Eq.trans ?_ (rankOf_unitsOfRank rank)
  refine rankOf_eq_of_ratio hpos Nat.one_pos ?_
  rw [Nat.mul_one, Nat.mul_assoc, hten]

/-- A fraction is the ratio that it writes, inside the bounds beyond which nothing is
computed. -/
theorem decimalRank_fraction {digits k : Nat} (hpos : 0 < digits)
    (hlow : k ≤ (Nat.toDigits 10 digits).length + 330)
    (hhigh : (Nat.toDigits 10 digits).length ≤ k + 310) :
    decimalRank digits (-k) = rankOf (digits * one) (Nat.pow 10 k) := by
  have hpoint : ¬((Nat.toDigits 10 digits).length + (-k : Int) < -330) := by omega
  have hpoint' : ¬(310 < (Nat.toDigits 10 digits).length + (-k : Int)) := by omega
  have hminus : (-k : Int).toNat = 0 := by omega
  have hplus : (- -k : Int).toNat = k := by omega
  simp only [decimalRank, hpos.ne', hpoint, hpoint', decide_false, Bool.or_self,
    Bool.false_eq_true, if_false, hminus, hplus, Nat.pow_eq, Nat.pow_zero, Nat.mul_one]

/-- A magnitude in full is a decimal of it. -/
theorem decimalRank_exact {rank : Nat} (h₀ : 0 < rank) (h : rank < infinityRank) :
    decimalRank (exact rank).digits (exact rank).exponent = rank := by
  have hfive : 0 < Nat.pow 5 1074 := by decide +kernel
  obtain ⟨hlow, hhigh⟩ : 744 < (Nat.toDigits 10 (unitsOfRank rank * Nat.pow 5 1074)).length ∧
      (Nat.toDigits 10 (unitsOfRank rank * Nat.pow 5 1074)).length ≤ 1384 :=
    length_toDigits_exact h₀ h hfive (by decide) (by decide) (by decide +kernel)
      (by decide +kernel)
  exact (decimalRank_fraction (k := 1074) (Nat.mul_pos (unitsOfRank_pos h₀) hfive) (by omega)
    (by omega)).trans (rankOf_exact (by decide +kernel) (by decide +kernel))

/-- **The shortest decimal of a magnitude reads back as it.** -/
theorem decimalRank_shortest {rank : Nat} (h₀ : 0 < rank) (h : rank < infinityRank) :
    decimalRank (shortest rank).digits (shortest rank).exponent = rank := by
  rw [shortest]
  cases hfind : (candidates rank).find? (readsAs rank) with
  | some d => exact (readsAs_iff h d).1 (List.find?_some hfind)
  | none => exact decimalRank_exact h₀ h

end Binary64
end MachineCatalog
