/-
# Ids and their canonical texts

An id is an integer, or a numeral that writes one, of at most `Text.decimalDigitLimit` digits
(`NumericId.Denotes`).  Reading it gives the canonical numeral of its integer.  A numeral is
canonical when it has no `+`, no zeros in front and no sign before a zero
(`Numeral.IsCanonical`), and each integer has one canonical numeral only
(`Numeral.isCanonical_iff`).

So two ids are read alike exactly when they denote one integer, and what is read of an id is
read as itself.  Every text that is no numeral, however long, is rejected as an id
(`NumericId.decode_is_canonical`).
-/

import MachineCatalog.Proofs.Numeral

namespace MachineCatalog

namespace Text

/-! ### Zeros in front -/

theorem ofDigitValues_map_val_cons (d : Fin 10) (ds : List (Fin 10)) :
    ofDigitValues 10 ((d :: ds).map Fin.val) =
      d.val * 10 ^ ds.length + ofDigitValues 10 (ds.map Fin.val) := by
  have happend := ofDigitValues_append 10 [d.val] (ds.map Fin.val)
  have hsingle : ofDigitValues 10 [d.val] = d.val := by simp [ofDigitValues]
  rwa [List.length_map, hsingle, List.singleton_append, ← List.map_cons] at happend

/-- A number needs fewer digits than a zero and those after it. -/
theorem length_toDigits_zero_cons {ds : List (Fin 10)} (h : ds ≠ []) :
    (Nat.toDigits 10 (ofDigitValues 10 ((0 :: ds).map Fin.val))).length ≤ ds.length := by
  rw [Nat.length_toDigits_le_iff (by decide) (List.length_pos_iff.2 h),
    ofDigitValues_map_val_cons, Fin.val_zero, Nat.zero_mul, Nat.zero_add]
  exact ofDigitValues_map_val_lt ds

/-- It needs all digits when the first is no zero. -/
theorem length_toDigits_cons_of_ne {d : Fin 10} (h : d ≠ 0) (ds : List (Fin 10)) :
    (Nat.toDigits 10 (ofDigitValues 10 ((d :: ds).map Fin.val))).length = ds.length + 1 := by
  refine le_antisymm ?_ (Nat.succ_le_of_lt (Nat.lt_of_not_le fun hfew => ?_))
  · rw [Nat.length_toDigits_le_iff (by decide) ds.length.succ_pos]
    exact ofDigitValues_map_val_lt (d :: ds)
  · have hds : 0 < ds.length := Nat.length_toDigits_pos.trans_le hfew
    rw [Nat.length_toDigits_le_iff (by decide) hds, ofDigitValues_map_val_cons] at hfew
    have hpos : 0 < d.val := Nat.pos_of_ne_zero fun hd => h (Fin.ext hd)
    have hlow : 10 ^ ds.length ≤ d.val * 10 ^ ds.length := Nat.le_mul_of_pos_left _ hpos
    omega

/-- Digits are as many as their number needs when no zero stands in front of others. -/
theorem length_toDigits_eq_iff {ds : List (Fin 10)} (h : ds ≠ []) :
    (Nat.toDigits 10 (ofDigitValues 10 (ds.map Fin.val))).length = ds.length ↔
      (ds.head? = some 0 → ds = [0]) := by
  obtain ⟨d, ds, rfl⟩ := List.exists_cons_of_ne_nil h
  rw [List.head?_cons, Option.some.injEq, List.length_cons]
  by_cases hd : d = 0
  · subst hd
    cases ds with
    | nil => simp [ofDigitValues]
    | cons e es =>
      have hfew := length_toDigits_zero_cons (List.cons_ne_nil e es)
      exact iff_of_false (by omega) (by simp)
  · exact iff_of_true (length_toDigits_cons_of_ne hd ds) fun h => absurd h hd

end Text

namespace Numeral

open Text

/-! ### Canonical numerals -/

/-- The numeral has no `+`, no zeros in front, and no sign before a zero. -/
structure IsCanonical (x : Numeral) : Prop where
  sign_ne_plus : x.sign ≠ .plus
  digits_of_head : x.digits.head? = some 0 → x.digits = [0]
  sign_of_zero : x.digits = [0] → x.sign = .absent

theorem isCanonical_canonical (n : Int) : (canonical n).IsCanonical where
  sign_ne_plus := by
    rw [canonical]
    dsimp only
    split_ifs <;> simp
  digits_of_head := by
    rw [← length_toDigits_eq_iff (canonical n).digits_ne_nil, ← natAbs_value, value_canonical,
      canonical, length_places]
  sign_of_zero h := by
    have habs : n.natAbs = 0 := by
      rw [← value_canonical n, natAbs_value, h]
      rfl
    rw [canonical, if_neg (by omega)]

/-- A canonical numeral that does not write zero has a sign when its integer is negative. -/
theorem IsCanonical.sign_eq {x : Numeral} (h : x.IsCanonical) :
    x.sign = if x.value < 0 then .minus else .absent := by
  have hvalue : x.value = withSign x.sign.negates (ofDigitValues 10 (x.digits.map Fin.val)) := rfl
  cases hs : x.sign with
  | plus => exact absurd hs h.sign_ne_plus
  | absent =>
    rw [hs] at hvalue
    simp only [Sign.negates, withSign, Bool.false_eq_true, if_false] at hvalue
    rw [if_neg (by omega)]
  | minus =>
    rw [hs] at hvalue
    have hne : ofDigitValues 10 (x.digits.map Fin.val) ≠ 0 := by
      intro hzero
      have hlen := (length_toDigits_eq_iff x.digits_ne_nil).2 h.digits_of_head
      rw [hzero, Nat.toDigits_zero, List.length_singleton, eq_comm, List.length_eq_one_iff] at hlen
      obtain ⟨d, hd⟩ := hlen
      rw [hd, List.map_singleton] at hzero
      have hd0 : d = 0 := Fin.ext (by simpa [ofDigitValues] using hzero)
      rw [hd0] at hd
      exact absurd (hs.symm.trans (h.sign_of_zero hd)) (by decide)
    simp only [Sign.negates, withSign, if_true] at hvalue
    rw [if_pos (by omega)]

/-- **A numeral is canonical when it is the canonical one of its integer.** -/
theorem isCanonical_iff (x : Numeral) : x.IsCanonical ↔ x = canonical x.value := by
  constructor
  · intro h
    have hlen := (length_toDigits_eq_iff x.digits_ne_nil).2 h.digits_of_head
    have hdigits : (canonical x.value).digits = x.digits := by
      rw [canonical]
      dsimp only
      rw [natAbs_value, hlen, places_ofDigitValues]
    exact Numeral.ext h.sign_eq hdigits.symm
  · intro h
    rw [h]
    exact isCanonical_canonical _

end Numeral

namespace NumericId

open Text

/-! ### What ids denote -/

/-- The value is an id that denotes the integer: the integer itself, or a numeral that writes it,
of no more digits than can be converted. -/
inductive Denotes : Value → Int → Prop where
  | integer {n : Int} (h : n.natAbs < 10 ^ decimalDigitLimit) : Denotes (.int n) n
  | numeral {x : Numeral} (h : x.IsShort) : Denotes (.text x.text) x.value

theorem Denotes.encode_eq {v : Value} {n : Int} (h : Denotes v n) : encode v = .ok n := by
  cases h with
  | integer h => rfl
  | numeral h => exact encode_text h

theorem Denotes.isLongInteger_eq_false {v : Value} {n : Int} (h : Denotes v n) :
    Value.isLongInteger n = false := by
  cases h with
  | integer h => exact Numeral.isLongInteger_eq_false_iff.2 h
  | numeral h => exact h.isLongInteger_value

/-- **An id is read as the canonical text of the integer that it denotes.** -/
theorem Denotes.decode_eq {v : Value} {n : Int} (h : Denotes v n) :
    decode v = .ok (signedDecimal n) :=
  decode_eq_ok_iff.2 ⟨n, h.encode_eq, h.isLongInteger_eq_false, rfl⟩

/-- The canonical text of an integer that can be shown is an id. -/
theorem denotes_canonical {n : Int} (h : Value.isLongInteger n = false) :
    Denotes (.text (Numeral.canonical n).text) n := by
  have hcanonical := Denotes.numeral ((Numeral.isShort_canonical_iff n).2 h)
  rwa [Numeral.value_canonical] at hcanonical

/-- Nothing but ids is read. -/
theorem exists_denotes_of_decode {v : Value} {s : Text} (h : decode v = .ok s) :
    ∃ n, Denotes v n := by
  obtain ⟨n, hn, hshort, -⟩ := decode_eq_ok_iff.1 h
  cases v with
  | int m =>
    obtain rfl := Except.ok.inj hn
    exact ⟨m, .integer (Numeral.isLongInteger_eq_false_iff.1 hshort)⟩
  | text t =>
    rw [encode] at hn
    split at hn
    · exact absurd hn (reject_ne_ok _ _)
    · rename_i negative ds hparts
      obtain ⟨x, rfl, hlen⟩ := exists_numeral_of_decimalParts? hparts
      split_ifs at hn with hlong
      · cases hn
      · exact ⟨x.value, .numeral (hlen.trans_le (Nat.not_lt.1 hlong))⟩
  | _ => exact absurd hn (reject_ne_ok _ _)

/-- A text that is no numeral is rejected. -/
theorem decode_of_not_numeral {s : Text} (h : ∀ x : Numeral, s ≠ x.text) :
    decode (.text s) = .error (.rejected (.malformedId (.text s))) := by
  have hparts : decimalParts? s.chars = none := by
    rw [Option.eq_none_iff_forall_ne_some]
    rintro ⟨negative, ds⟩ hparts
    obtain ⟨x, hx, -⟩ := exists_numeral_of_decimalParts? hparts
    exact h x hx
  rw [decode, encode]
  simp only [hparts]
  rfl

/-- **Reading makes ids canonical.**  Every integer and every numeral of no more digits than can
be converted is read, as the canonical numeral of its integer, which the wire form carries for
both, and which is read as itself; nothing else is read.  Two ids are read alike exactly when they
denote the same integer.  Every text that is no numeral is rejected, whatever its length. -/
theorem decode_is_canonical :
    (∀ v n, Denotes v n → ∃ x : Numeral, x.IsCanonical ∧ x.value = n ∧
      decode v = .ok x.text ∧ decode (.text x.text) = .ok x.text ∧
      encode v = .ok n ∧ encode (.text x.text) = .ok n) ∧
    (∀ v s, decode v = .ok s → ∃ n, Denotes v n) ∧
    (∀ v w m n, Denotes v m → Denotes w n → (decode v = decode w ↔ m = n)) ∧
    (∀ x : Numeral, x.IsShort → (decode (.text x.text) = .ok x.text ↔ x.IsCanonical)) ∧
    ∀ s : Text, (∀ x : Numeral, s ≠ x.text) →
      decode (.text s) = .error (.rejected (.malformedId (.text s))) := by
  refine ⟨fun v n h => ?_, fun v s => exists_denotes_of_decode, fun v w m n hv hw => ?_,
    fun x hx => ?_, fun s => decode_of_not_numeral⟩
  · have hcanonical := denotes_canonical h.isLongInteger_eq_false
    refine ⟨Numeral.canonical n, Numeral.isCanonical_canonical n, Numeral.value_canonical n, ?_, ?_,
      h.encode_eq, hcanonical.encode_eq⟩
    · rw [h.decode_eq, Numeral.text_canonical]
    · rw [hcanonical.decode_eq, Numeral.text_canonical]
  · rw [hv.decode_eq, hw.decode_eq, Except.ok.injEq, signedDecimal_injective.eq_iff]
  · rw [(Denotes.numeral hx).decode_eq, Except.ok.injEq, ← Numeral.text_canonical,
      Numeral.text_injective.eq_iff, Numeral.isCanonical_iff, eq_comm]

/-- Seven, with a sign and zeros in front. -/
def paddedSeven : Numeral := ⟨.plus, [zeroDigit, zeroDigit, ⟨7, by decide⟩], List.cons_ne_nil _ _⟩

/-- Minus zero. -/
def minusZero : Numeral := ⟨.minus, [zeroDigit], List.cons_ne_nil _ _⟩

theorem decode_is_canonical_paddedSeven :
    paddedSeven.text = "+007" ∧ Denotes (.text paddedSeven.text) 7 ∧ Denotes (.int 7) 7 ∧
      decode (.text "+007") = decode (.int 7) ∧
      minusZero.text = "-0" ∧ decode (.text "-0") ≠ .ok "-0" ∧
      decode (.text "7\n") = .error (.rejected (.malformedId (.text "7\n"))) := by
  obtain ⟨-, -, hsame, hself, hmalformed⟩ := decode_is_canonical
  have hseven : Denotes (.text paddedSeven.text) 7 := .numeral (x := paddedSeven) (by decide)
  have hint : Denotes (.int 7) 7 := .integer (by decide +kernel)
  have hzero : ¬minusZero.IsCanonical := fun h => absurd (h.sign_of_zero rfl) (by decide)
  have hline : ∀ x : Numeral, ("7\n" : Text) ≠ x.text := by
    intro x hx
    have hparts := decimalParts?_chars x
    rw [← hx, show decimalParts? ("7\n" : Text).chars = none by decide] at hparts
    cases hparts
  exact ⟨rfl, hseven, hint, (hsame _ _ _ _ hseven hint).2 rfl, rfl,
    fun h => hzero ((hself minusZero (by decide)).1 h), hmalformed _ hline⟩

end NumericId
end MachineCatalog
