/-
# Decimal digits in texts

A number that fits into `w` places is written by `w` digits, its digits from the
left with zeros in front (`padded_eq_map_digit`), and those digits have the value
of the number (`ofDigitValues_places`).  A code point that is no half of a pair is
that of its character (`CodePoint.toNat_toChar`).
-/

import MachineCatalog.Text.Numeral
import Mathlib.Data.List.Induction
import Mathlib.Data.Nat.Digits.Defs

namespace MachineCatalog

namespace CodePoint

theorem val_ofChar (c : Char) : (ofChar c).val = c.toNat := rfl

/-- A character is no half of a surrogate pair. -/
theorem isHalf_ofChar (c : Char) : (ofChar c).isHalf = false := by
  have h : c.toNat < 0xD800 ∨ 0xDFFF < c.toNat ∧ c.toNat < 0x110000 := c.valid
  have hn : ¬(0xD800 ≤ c.toNat ∧ c.toNat < 0xE000) := by omega
  rw [isHalf, ← Bool.not_eq_true, Bool.and_eq_true, decide_eq_true_iff, decide_eq_true_iff]
  exact hn

@[simp] theorem toChar_ofChar (c : Char) : (ofChar c).toChar = c := by
  rw [toChar, isHalf_ofChar, val_ofChar]
  exact Char.ofNat_toNat c

/-- A code point that is no half of a pair is that of its character. -/
theorem toNat_toChar {c : CodePoint} (h : c.isHalf = false) : c.toChar.toNat = c.val := by
  have hlt := c.isLt
  have hc : ¬(0xD800 ≤ c.val ∧ c.val < 0xE000) := by
    rw [isHalf, ← Bool.not_eq_true, Bool.and_eq_true, decide_eq_true_iff, decide_eq_true_iff] at h
    exact h
  have hv : c.val.isValidChar := by
    rw [Nat.isValidChar]
    omega
  rw [toChar, h, if_neg (by decide), Char.ofNat, dif_pos hv]
  rfl

theorem isHalf_of_ascii {c : CodePoint} (h : c.val < 0x80) : c.isHalf = false := by
  rw [isHalf, ← Bool.not_eq_true, Bool.and_eq_true, decide_eq_true_iff, decide_eq_true_iff]
  omega

/-- A code point that does not show as the replacement character is no half of a pair. -/
theorem isHalf_eq_false_of_toChar {c : CodePoint} (h : c.toChar.toNat ≠ 0xFFFD) :
    c.isHalf = false := by
  cases hc : c.isHalf with
  | false => rfl
  | true =>
    rw [toChar, hc, if_pos rfl] at h
    exact absurd rfl h

/-- The character of a code point determines it, the replacement character apart. -/
theorem eq_ofChar_of_toChar {c : CodePoint} {x : Char} (h : c.toChar = x)
    (hx : x.toNat ≠ 0xFFFD) : c = ofChar x := by
  have hc := isHalf_eq_false_of_toChar (c := c) (h ▸ hx)
  exact Fin.ext (by rw [val_ofChar, ← h, toNat_toChar hc])

end CodePoint

namespace Text

@[simp] theorem chars_nil : chars [] = [] := rfl

@[simp] theorem chars_append (s t : Text) : (s ++ t).chars = s.chars ++ t.chars :=
  List.map_append

@[simp] theorem chars_ofChars (cs : List Char) : (ofChars cs).chars = cs := by
  rw [chars, ofChars, List.map_map]
  exact List.map_id'' (fun c => CodePoint.toChar_ofChar c) cs

/-- The code point of a decimal digit. -/
def digit (d : Fin 10) : CodePoint := CodePoint.ofChar (Nat.digitChar d)

theorem val_digit : ∀ d : Fin 10, (digit d).val = 48 + d.val := by decide

theorem toChar_digit (d : Fin 10) : (digit d).toChar = Nat.digitChar d := CodePoint.toChar_ofChar _

/-- The digit that numbers are padded with. -/
def zeroDigit : Fin 10 := 0

@[simp] theorem val_zeroDigit : zeroDigit.val = 0 := rfl

/-- The last `w` decimal digits of a number, zeros in front included. -/
def places : Nat → Nat → List (Fin 10)
  | 0, _ => []
  | w + 1, n => places w (n / 10) ++ [Fin.ofNat 10 n]

@[simp] theorem length_places (w n : Nat) : (places w n).length = w := by
  induction w generalizing n with
  | zero => rfl
  | succ w ih => rw [places, List.length_append, ih]; rfl

/-- Zero padding takes the last digit off. -/
theorem paddedDigits_succ {base w : Nat} (hb : 1 < base) (hw : 0 < w) (n : Nat) :
    paddedDigits base (w + 1) n = paddedDigits base w (n / base) ++ [(n % base).digitChar] := by
  rw [paddedDigits, paddedDigits]
  rcases Nat.lt_or_ge n base with hn | hn
  · obtain ⟨v, rfl⟩ := Nat.exists_eq_add_of_lt hw
    rw [Nat.div_eq_of_lt hn, Nat.mod_eq_of_lt hn, Nat.toDigits_of_lt_base hn, Nat.toDigits_zero]
    simp [List.replicate_succ']
  · rw [Nat.toDigits_of_base_le hb hn]
    simp

/-- **Zero padding writes the places.** -/
theorem paddedDigits_eq {w n : Nat} (hw : 0 < w) (h : n < 10 ^ w) :
    paddedDigits 10 w n = (places w n).map fun d => Nat.digitChar d.val := by
  induction w generalizing n with
  | zero => omega
  | succ w ih =>
    rw [places, List.map_append]
    rcases Nat.eq_zero_or_pos w with rfl | hw'
    · rw [paddedDigits, Nat.toDigits_of_lt_base (by omega)]
      simp [places, Nat.mod_eq_of_lt (show n < 10 by omega)]
    · have hn : n / 10 < 10 ^ w := by rw [Nat.pow_succ] at h; omega
      rw [paddedDigits_succ (by decide) hw', ih hw' hn]
      rfl

theorem padded_eq_map_digit {w n : Nat} (hw : 0 < w) (h : n < 10 ^ w) :
    padded w n = (places w n).map digit := by
  rw [padded, paddedDigits_eq hw h, ofChars, List.map_map]
  exact List.map_congr_left fun _ _ => rfl

theorem ofDigitValues_append_singleton (base : Nat) (ds : List Nat) (d : Nat) :
    ofDigitValues base (ds ++ [d]) = ofDigitValues base ds * base + d := by
  rw [ofDigitValues, List.foldl_append]
  rfl

theorem ofDigitValues_append (base : Nat) (ds es : List Nat) :
    ofDigitValues base (ds ++ es) =
      ofDigitValues base ds * base ^ es.length + ofDigitValues base es := by
  induction es using List.reverseRecOn with
  | nil => simp [ofDigitValues]
  | append_singleton es e ih =>
    rw [← List.append_assoc, ofDigitValues_append_singleton, ih, ofDigitValues_append_singleton,
      List.length_append, List.length_singleton, Nat.pow_succ, Nat.add_mul, Nat.mul_assoc,
      Nat.add_assoc]

theorem ofDigitValues_replicate_zero (base k : Nat) :
    ofDigitValues base (List.replicate k 0) = 0 := by
  induction k with
  | zero => rfl
  | succ k ih => rw [List.replicate_succ', ofDigitValues_append_singleton, ih, Nat.zero_mul]

/-- The places of a number that fits have its value. -/
theorem ofDigitValues_places {w n : Nat} (h : n < 10 ^ w) :
    ofDigitValues 10 ((places w n).map Fin.val) = n := by
  induction w generalizing n with
  | zero => simp [places, ofDigitValues]; omega
  | succ w ih =>
    have hn : n / 10 < 10 ^ w := by rw [Nat.pow_succ] at h; omega
    rw [places, List.map_append, List.map_singleton, ofDigitValues_append_singleton, ih hn]
    simp only [Fin.val_ofNat]
    omega

/-- Digits are the places of the number that they write. -/
theorem places_ofDigitValues (ds : List (Fin 10)) :
    places ds.length (ofDigitValues 10 (ds.map Fin.val)) = ds := by
  induction ds using List.reverseRecOn with
  | nil => rfl
  | append_singleton ds d ih =>
    rw [List.length_append, List.length_singleton, List.map_append, List.map_singleton,
      ofDigitValues_append_singleton, places]
    have hdiv : (ofDigitValues 10 (ds.map Fin.val) * 10 + d) / 10 =
        ofDigitValues 10 (ds.map Fin.val) := by omega
    have hmod : Fin.ofNat 10 (ofDigitValues 10 (ds.map Fin.val) * 10 + d) = d :=
      Fin.ext (by rw [Fin.val_ofNat]; omega)
    rw [hdiv, hmod, ih]

end Text
end MachineCatalog
