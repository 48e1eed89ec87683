/-
# Decimal ids and the integers they write

A numeral is an optional sign and one or more decimal digits.  Every numeral of at
most `Text.decimalDigitLimit` digits is the text of an id, which the wire form
carries as the integer that the numeral writes (`NumericId.encode_text`).  One
numeral of each integer is canonical, and reading an id gives the text of that one
(`NumericId.decode_eq_ok_iff`); no two integers share it
(`Text.signedDecimal_injective`).  The liberal reading of integers reads a numeral of
that length as its integer too (`Numeral.readInteger?_text`).
-/

import MachineCatalog.NumericId
import MachineCatalog.Proofs.Failure
import MachineCatalog.Proofs.Text.Digits
import Mathlib.Data.List.Induction

namespace MachineCatalog

/-- What stands in front of the digits of a numeral. -/
inductive Sign where
  | absent
  | plus
  | minus
deriving DecidableEq

namespace Sign

/-- The sign as it is written. -/
def text : Sign → Text
  | .absent => []
  | .plus => "+"
  | .minus => "-"

/-- Whether the sign makes a number negative. -/
def negates : Sign → Bool
  | .absent => false
  | .plus => false
  | .minus => true

end Sign

/-- An integer as it is written: a sign and digits, in full. -/
@[ext]
structure Numeral where
  sign : Sign
  digits : List (Fin 10)
  digits_ne_nil : digits ≠ []

namespace Numeral

open Text

/-- The text of a numeral. -/
def text (x : Numeral) : Text := x.sign.text ++ x.digits.map digit

/-- The integer that a numeral writes. -/
def value (x : Numeral) : Int :=
  withSign x.sign.negates (ofDigitValues 10 (x.digits.map Fin.val))

/-- A numeral that is short enough to be converted. -/
def IsShort (x : Numeral) : Prop := x.digits.length ≤ decimalDigitLimit

instance (x : Numeral) : Decidable x.IsShort := by unfold IsShort; infer_instance

/-- The numeral of an integer without `+`, without zeros in front and without `-0`. -/
def canonical (n : Int) : Numeral where
  sign := if n < 0 then .minus else .absent
  digits := places (Nat.toDigits 10 n.natAbs).length n.natAbs
  digits_ne_nil h := by
    have hl := length_places (Nat.toDigits 10 n.natAbs).length n.natAbs
    rw [h] at hl
    exact Nat.length_toDigits_pos.ne hl

end Numeral

namespace Text

/-- A number in as many places as it needs. -/
theorem decimal_eq_map_digit (n : Nat) :
    decimal n = (places (Nat.toDigits 10 n).length n).map digit := by
  have hw : 0 < (Nat.toDigits 10 n).length := Nat.length_toDigits_pos
  have hn : n < 10 ^ (Nat.toDigits 10 n).length :=
    (Nat.length_toDigits_le_iff (by decide) hw).1 le_rfl
  rw [← padded_eq_map_digit hw hn, padded, paddedDigits, Nat.sub_self]
  rfl

theorem ofDigitChars_map_digitChar (ds : List (Fin 10)) (n : Nat) :
    Nat.ofDigitChars 10 (ds.map fun d => Nat.digitChar d.val) n =
      (ds.map Fin.val).foldl (fun n d => n * 10 + d) n := by
  induction ds generalizing n with
  | nil => rfl
  | cons d ds ih =>
    rw [List.map_cons, Nat.ofDigitChars_cons_digitChar_of_lt_ten d.isLt, ih, Nat.mul_comm]
    rfl

/-- Digits of a base write a number below the power of their count. -/
theorem ofDigitValues_lt {base : Nat} {ds : List Nat} (h : ∀ d ∈ ds, d < base) :
    ofDigitValues base ds < base ^ ds.length := by
  induction ds using List.reverseRecOn with
  | nil => exact Nat.one_pos
  | append_singleton ds d ih =>
    rw [List.forall_mem_append, List.forall_mem_singleton] at h
    rw [ofDigitValues_append_singleton, List.length_append, List.length_singleton, Nat.pow_succ]
    calc ofDigitValues base ds * base + d < ofDigitValues base ds * base + base := by omega
      _ = (ofDigitValues base ds + 1) * base := (Nat.succ_mul _ _).symm
      _ ≤ base ^ ds.length * base := Nat.mul_le_mul_right base (ih h.1)

theorem ofDigitValues_map_val_lt (ds : List (Fin 10)) :
    ofDigitValues 10 (ds.map Fin.val) < 10 ^ ds.length :=
  (ofDigitValues_lt (List.forall_mem_map.2 fun d _ => d.isLt)).trans_eq
    (congrArg _ (List.length_map _))

end Text

namespace Numeral

open Text

@[simp] theorem text_canonical (n : Int) : (canonical n).text = signedDecimal n := by
  rw [text, canonical, signedDecimal, ← decimal_eq_map_digit]
  split_ifs <;> rfl

@[simp] theorem value_canonical (n : Int) : (canonical n).value = n := by
  have hn : n.natAbs < 10 ^ (Nat.toDigits 10 n.natAbs).length :=
    (Nat.length_toDigits_le_iff (by decide) Nat.length_toDigits_pos).1 le_rfl
  rw [value, canonical, ofDigitValues_places hn]
  split_ifs
  · simp only [Sign.negates, withSign, if_true]
    omega
  · simp only [Sign.negates, withSign, Bool.false_eq_true, if_false]
    omega

/-- An integer can be shown when it has no more digits than the limit. -/
theorem isLongInteger_eq_false_iff {n : Int} :
    Value.isLongInteger n = false ↔ n.natAbs < 10 ^ decimalDigitLimit := by
  rw [Value.isLongInteger, decide_eq_false_iff_not, Nat.not_le, Nat.pow_eq]

/-- An integer can be shown when its canonical numeral is short. -/
theorem isShort_canonical_iff (n : Int) :
    (canonical n).IsShort ↔ Value.isLongInteger n = false := by
  rw [IsShort, canonical, length_places,
    Nat.length_toDigits_le_iff (by decide) (by decide), isLongInteger_eq_false_iff]

theorem natAbs_value (x : Numeral) :
    x.value.natAbs = ofDigitValues 10 (x.digits.map Fin.val) := by
  rw [value, withSign]
  split_ifs <;> omega

/-- The integer of a short numeral can be shown. -/
theorem IsShort.isLongInteger_value {x : Numeral} (h : x.IsShort) :
    Value.isLongInteger x.value = false := by
  have hle : 10 ^ x.digits.length ≤ 10 ^ decimalDigitLimit := Nat.pow_le_pow_right (by decide) h
  rw [isLongInteger_eq_false_iff, natAbs_value]
  exact (ofDigitValues_map_val_lt x.digits).trans_le hle

theorem chars_text (x : Numeral) :
    x.text.chars = x.sign.text.chars ++ x.digits.map fun d => Nat.digitChar d.val := by
  rw [text, chars, List.map_append, List.map_map]
  exact congrArg _ (List.map_congr_left fun d _ => toChar_digit d)

theorem digitChar_ne_sign : ∀ d : Fin 10, Nat.digitChar d ≠ '-' ∧ Nat.digitChar d ≠ '+' := by
  decide

/-- The sign of a numeral is split from its digits. -/
theorem splitSign_chars (x : Numeral) :
    splitSign x.text.chars = (x.sign.negates, x.digits.map fun d => Nat.digitChar d.val) := by
  obtain ⟨sign, digits, hne⟩ := x
  rw [chars_text]
  cases sign with
  | plus => rfl
  | minus => rfl
  | absent =>
    cases digits with
    | nil => exact absurd rfl hne
    | cons d ds =>
      change splitSign (Nat.digitChar d :: _) = _
      rw [splitSign]
      · rfl
      · exact fun rest h => (digitChar_ne_sign d).1 (List.cons.inj h).1
      · exact fun rest h => (digitChar_ne_sign d).2 (List.cons.inj h).1

theorem digitChar_inj (a b : Fin 10) : Nat.digitChar a = Nat.digitChar b → a = b := by
  revert a b
  decide

/-- The text of a numeral determines it. -/
theorem text_injective : Function.Injective text := by
  intro x y h
  have hparts := splitSign_chars x
  rw [h, splitSign_chars y, Prod.mk.injEq, List.map_inj_right digitChar_inj] at hparts
  have hsign : x.sign.text = y.sign.text := by
    rw [text, text, hparts.2] at h
    exact List.append_cancel_right h
  refine Numeral.ext ?_ hparts.2.symm
  revert hsign
  cases x.sign <;> cases y.sign <;> decide

end Numeral

/-! ### The texts of ids -/

namespace Text

theorem exists_digit_of_isAsciiDigit {c : CodePoint} (h : isAsciiDigit c.toChar = true) :
    ∃ d : Fin 10, c = digit d := by
  rw [isAsciiDigit, Bool.and_eq_true, decide_eq_true_iff, decide_eq_true_iff] at h
  have hlow : 48 ≤ c.toChar.toNat := h.1
  have hhigh : c.toChar.toNat ≤ 57 := h.2
  have hhalf : c.isHalf = false := CodePoint.isHalf_eq_false_of_toChar (by omega)
  rw [CodePoint.toNat_toChar hhalf] at hlow hhigh
  refine ⟨⟨c.val - 48, by omega⟩, Fin.ext ?_⟩
  rw [val_digit]
  dsimp only
  omega

/-- The sign that is split from a text stands in front of it. -/
theorem exists_sign_of_splitSign (s : Text) :
    ∃ (sign : Sign) (body : Text), s = sign.text ++ body ∧ (splitSign s.chars).2 = body.chars := by
  cases s with
  | nil => exact ⟨.absent, [], rfl, rfl⟩
  | cons c rest =>
    by_cases hm : c.toChar = '-'
    · refine ⟨.minus, rest, ?_, ?_⟩
      · rw [CodePoint.eq_ofChar_of_toChar hm (by decide)]
        rfl
      · rw [chars, List.map_cons, hm]
        rfl
    · by_cases hp : c.toChar = '+'
      · refine ⟨.plus, rest, ?_, ?_⟩
        · rw [CodePoint.eq_ofChar_of_toChar hp (by decide)]
          rfl
        · rw [chars, List.map_cons, hp]
          rfl
      · refine ⟨.absent, c :: rest, rfl, ?_⟩
        rw [chars, List.map_cons, splitSign]
        · exact fun more h => hm (List.cons.inj h).1
        · exact fun more h => hp (List.cons.inj h).1

end Text

namespace NumericId

open Text

theorem decimalParts?_chars (x : Numeral) :
    decimalParts? x.text.chars =
      some (x.sign.negates, x.digits.map fun d => Nat.digitChar d.val) := by
  have hall : (x.digits.map fun d => Nat.digitChar d.val).all isAsciiDigit = true := by
    rw [List.all_eq_true]
    intro c hc
    obtain ⟨d, -, rfl⟩ := List.mem_map.1 hc
    exact (by decide : ∀ d : Fin 10, isAsciiDigit (Nat.digitChar d) = true) d
  have hne : (x.digits.map fun d => Nat.digitChar d.val).isEmpty = false := by
    rw [List.isEmpty_eq_false_iff]
    exact fun h => x.digits_ne_nil (List.map_eq_nil_iff.1 h)
  rw [decimalParts?, Numeral.splitSign_chars]
  simp only [hall, hne]
  rfl

/-- A text of digits is written in digits. -/
theorem exists_map_digit_of_all {s : Text} (h : s.chars.all isAsciiDigit = true) :
    ∃ ds : List (Fin 10), s = ds.map digit := by
  induction s with
  | nil => exact ⟨[], rfl⟩
  | cons c s ih =>
    rw [chars, List.map_cons, List.all_cons, Bool.and_eq_true] at h
    obtain ⟨d, rfl⟩ := exists_digit_of_isAsciiDigit h.1
    obtain ⟨ds, rfl⟩ := ih h.2
    exact ⟨d :: ds, rfl⟩

/-- **Only numerals have the form of an id.** -/
theorem exists_numeral_of_decimalParts? {s : Text} {negative : Bool} {ds : List Char}
    (h : decimalParts? s.chars = some (negative, ds)) :
    ∃ x : Numeral, s = x.text ∧ x.digits.length = ds.length := by
  obtain ⟨sign, body, rfl, hbody⟩ : ∃ (sign : Sign) (body : Text), s = sign.text ++ body ∧
      (splitSign s.chars).2 = body.chars := exists_sign_of_splitSign s
  rw [decimalParts?] at h
  dsimp only at h
  split_ifs at h with hc
  obtain rfl := (Prod.mk.inj (Option.some.inj h)).2
  rw [hbody, Bool.or_eq_true, not_or, Bool.not_eq_true', Bool.not_eq_false] at hc
  obtain ⟨digits, rfl⟩ := exists_map_digit_of_all hc.2
  have hne : digits ≠ [] := by
    rintro rfl
    exact hc.1 rfl
  refine ⟨⟨sign, digits, hne⟩, rfl, ?_⟩
  rw [hbody, chars, List.length_map, List.length_map]

/-- **A short numeral is an id**, for which the wire form carries its value. -/
theorem encode_text {x : Numeral} (h : x.IsShort) : encode (.text x.text) = .ok x.value := by
  have hlen : ¬decimalDigitLimit < (x.digits.map fun d => Nat.digitChar d.val).length := by
    rw [List.length_map]
    exact Nat.not_lt.2 h
  simp only [encode, decimalParts?_chars, if_neg hlen, ofDigitChars_map_digitChar]
  rfl

/-- A longer one is not converted. -/
theorem encode_text_of_not_isShort {x : Numeral} (h : ¬x.IsShort) :
    encode (.text x.text) = abort .longInteger := by
  have hlen : decimalDigitLimit < (x.digits.map fun d => Nat.digitChar d.val).length := by
    rw [List.length_map]
    exact Nat.not_le.1 h
  simp only [encode, decimalParts?_chars, if_pos hlen]

/-- The canonical text of an integer is an id of it. -/
theorem encode_signedDecimal {n : Int} (h : Value.isLongInteger n = false) :
    encode (.text (signedDecimal n)) = .ok n := by
  have hs := encode_text ((Numeral.isShort_canonical_iff n).2 h)
  rwa [Numeral.text_canonical, Numeral.value_canonical] at hs

/-- **Reading an id gives the canonical text of its integer**, if that can be shown. -/
theorem decode_eq_ok_iff {v : Value} {s : Text} :
    decode v = .ok s ↔ ∃ n, encode v = .ok n ∧ Value.isLongInteger n = false ∧
      s = signedDecimal n := by
  rw [decode, bind_eq_ok_iff]
  refine exists_congr fun n => and_congr_right fun _ => ?_
  cases hl : Value.isLongInteger n with
  | true => simp [abort]
  | false => simpa using eq_comm

end NumericId

/-- No two integers have one canonical text. -/
theorem Text.signedDecimal_injective : Function.Injective Text.signedDecimal := fun a b h => by
  have hv : (Numeral.canonical a).value = (Numeral.canonical b).value :=
    congrArg Numeral.value
      (Numeral.text_injective (by rwa [Numeral.text_canonical, Numeral.text_canonical]))
  rwa [Numeral.value_canonical, Numeral.value_canonical] at hv

/-! ### Numerals read as integers -/

namespace Text

theorem trimBlanks_of_forall {cs : List Char} (h : ∀ c ∈ cs, isBlank c = false) :
    trimBlanks cs = cs := by
  have hdrop : ∀ ds : List Char, (∀ c ∈ ds, isBlank c = false) → ds.dropWhile isBlank = ds := by
    intro ds hds
    cases ds with
    | nil => rfl
    | cons c ds => exact List.dropWhile_cons_of_neg (by simp [hds c List.mem_cons_self])
  rw [trimBlanks, hdrop cs h, hdrop _ fun c hc => h c (List.mem_reverse.1 hc), List.reverse_reverse]

theorem dropBaseMark_ten (cs : List Char) : dropBaseMark 10 cs = cs := by
  unfold dropBaseMark
  split
  · simp
  · rfl

theorem digitIn?_digitChar (d : Fin 10) : digitIn? 10 (Nat.digitChar d) = some d.val := by
  revert d
  decide

theorem laterDigits?_digitChars (ds : List (Fin 10)) :
    laterDigits? 10 (ds.map fun d => Nat.digitChar d.val) = some (ds.map Fin.val) := by
  induction ds with
  | nil => rfl
  | cons d ds ih =>
    have hmark : Nat.digitChar d ≠ '_' :=
      (by decide : ∀ d : Fin 10, Nat.digitChar d ≠ '_') d
    rw [List.map_cons, laterDigits?, digitIn?_digitChar, ih]
    · rfl
    · exact fun c rest hc _ => hmark hc

theorem digitValues?_digitChars {ds : List (Fin 10)} (h : ds ≠ []) :
    digitValues? 10 (ds.map fun d => Nat.digitChar d.val) = some (ds.map Fin.val) := by
  obtain ⟨d, ds, rfl⟩ := List.exists_cons_of_ne_nil h
  rw [List.map_cons, digitValues?, digitIn?_digitChar, laterDigits?_digitChars]
  rfl

end Text

namespace Numeral

open Text

theorem isBlank_chars (x : Numeral) : ∀ c ∈ x.text.chars, isBlank c = false := by
  intro c hc
  rw [chars_text, List.mem_append] at hc
  rcases hc with hc | hc
  · have hsign : ∀ sign : Sign, sign.text.chars.all (fun c => !isBlank c) = true := by
      intro sign
      cases sign <;> decide
    simpa using List.all_eq_true.1 (hsign x.sign) c hc
  · obtain ⟨d, -, rfl⟩ := List.mem_map.1 hc
    exact (by decide : ∀ d : Fin 10, isBlank (Nat.digitChar d) = false) d

/-- **A short numeral is read as its integer.** -/
theorem readInteger?_text {x : Numeral} (h : x.IsShort) :
    readInteger? 10 x.text.chars = some x.value := by
  have hlen : ¬decimalDigitLimit < (x.digits.map Fin.val).length := by
    rw [List.length_map]
    exact Nat.not_lt.2 h
  simp only [readInteger?, trimBlanks_of_forall x.isBlank_chars, splitSign_chars, dropBaseMark_ten,
    digitValues?_digitChars x.digits_ne_nil, Option.bind_eq_bind, Option.bind_some]
  rw [if_neg (by simpa using hlen)]
  rfl

end Numeral

end MachineCatalog
