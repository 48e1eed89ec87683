/-
# The grammar of ISO 8601 timestamps

A timestamp of ISO 8601 is a date, possibly one separator and a time, and possibly an offset
(`IsIsoTimestamp`).  A date is a calendar date or a week date, a time has up to three parts of two
digits, with or without colons, and the seconds may have a fraction.

The forms below are wider: `ClockForm` also has a fraction after the hour or the minute, one after
a third colon and one without a mark, and `LooseForm` has characters that are passed over.
`ClockForm.IsIso` and `LooseForm.Deviates` tell them apart.
-/

import MachineCatalog.Proofs.Timestamp.Preparing

namespace MachineCatalog
namespace Timestamp

open Text

/-- A number in a fixed count of digits. -/
def numberText (width n : Nat) : Text := (places width n).map digit

@[simp] theorem length_numberText (width n : Nat) : (numberText width n).length = width := by
  rw [numberText, List.length_map, length_places]

/-- A mark between the parts of a form that has marks. -/
def markText (separated : Bool) (mark : Char) : Text :=
  if separated then [CodePoint.ofChar mark] else []

/-! ### Dates -/

/-- A date as it is written, with hyphens or without. -/
inductive DateForm where
  | calendar (separated : Bool) (year : Fin 10000) (month day : Fin 100)
  | week (separated : Bool) (year : Fin 10000) (number : Fin 100) (day : Option (Fin 10))

/-- The text of a date. -/
def DateForm.text : DateForm → Text
  | .calendar separated year month day =>
    numberText 4 year ++ (markText separated '-' ++ (numberText 2 month ++
      (markText separated '-' ++ numberText 2 day)))
  | .week separated year number day =>
    numberText 4 year ++ (markText separated '-' ++ (CodePoint.ofChar 'W' :: (numberText 2 number ++
      day.elim [] fun d => markText separated '-' ++ [digit d])))

theorem mem_numberText {width n : Nat} {c : CodePoint} (h : c ∈ numberText width n) :
    48 ≤ c.val ∧ c.val ≤ 57 := by
  obtain ⟨d, -, rfl⟩ := List.mem_map.1 h
  rw [val_digit]
  omega

theorem eq_of_mem_markText {separated : Bool} {mark : Char} {c : CodePoint}
    (h : c ∈ markText separated mark) : c = CodePoint.ofChar mark := by
  cases separated with
  | false => exact absurd h List.not_mem_nil
  | true => exact List.mem_singleton.1 h

/-- A date has digits, hyphens and a `W`. -/
theorem DateForm.mem_text {d : DateForm} {c : CodePoint} (h : c ∈ d.text) :
    c.val = 45 ∨ (48 ≤ c.val ∧ c.val ≤ 57) ∨ c.val = 87 := by
  have hnumber {width n : Nat} (hc : c ∈ numberText width n) :
      c.val = 45 ∨ (48 ≤ c.val ∧ c.val ≤ 57) ∨ c.val = 87 := .inr (.inl (mem_numberText hc))
  have hmark {separated : Bool} (hc : c ∈ markText separated '-') :
      c.val = 45 ∨ (48 ≤ c.val ∧ c.val ≤ 57) ∨ c.val = 87 :=
    .inl (by rw [eq_of_mem_markText hc]; rfl)
  cases d with
  | calendar separated year month day =>
    simp only [text, List.mem_append] at h
    rcases h with h | h | h | h | h
    · exact hnumber h
    · exact hmark h
    · exact hnumber h
    · exact hmark h
    · exact hnumber h
  | week separated year number day =>
    simp only [text, List.mem_append, List.mem_cons] at h
    rcases h with h | h | rfl | h | h
    · exact hnumber h
    · exact hmark h
    · exact .inr (.inr rfl)
    · exact hnumber h
    · cases day with
      | none => exact absurd h List.not_mem_nil
      | some d =>
        rcases List.mem_append.1 h with h | h
        · exact hmark h
        · obtain rfl := List.mem_singleton.1 h
          rw [val_digit]
          omega

theorem DateForm.seven_le_length (d : DateForm) : 7 ≤ d.text.length := by
  cases d with
  | calendar => simp only [text, List.length_append, length_numberText]; omega
  | week => simp only [text, List.length_append, List.length_cons, length_numberText]; omega

/-! ### Times -/

/-- What stands before the digits of a fraction. -/
inductive FractionMark where
  | point
  | comma
  | colon
  | bare
deriving DecidableEq

/-- The mark as it is written. -/
def FractionMark.text : FractionMark → Text
  | .point => [CodePoint.ofChar '.']
  | .comma => [CodePoint.ofChar ',']
  | .colon => [CodePoint.ofChar ':']
  | .bare => []

/-- A mark is known by its text. -/
theorem FractionMark.text_injective {m n : FractionMark} (h : m.text = n.text) : m = n := by
  revert h
  cases m <;> cases n <;> decide

/-- A fraction as it is written: a mark and one or more digits. -/
structure Fraction where
  mark : FractionMark
  digits : List (Fin 10)
  digits_ne_nil : digits ≠ []

/-- The text of a fraction. -/
def Fraction.text (f : Fraction) : Text := f.mark.text ++ f.digits.map digit

/-- A time as it is written: the hour, up to two more parts, with colons or without, and possibly a
fraction.  Only a third part is followed by a fraction with a colon or without a mark, and one
digit without a mark is no fraction. -/
structure ClockForm where
  hour : Fin 100
  colons : Bool
  later : List (Fin 100)
  fraction : Option Fraction
  length_later : later.length ≤ 2
  colon_fits : ∀ f ∈ fraction, f.mark = .colon → colons = true ∧ later.length = 2
  bare_fits : ∀ f ∈ fraction, f.mark = .bare →
    colons = false ∧ later.length = 2 ∧ 2 ≤ f.digits.length

/-- The text of the parts after the hour. -/
def laterText (colons : Bool) (later : List (Fin 100)) : Text :=
  later.flatMap fun n : Fin 100 => markText colons ':' ++ numberText 2 n

namespace ClockForm

/-- The text of a time. -/
def text (c : ClockForm) : Text :=
  numberText 2 c.hour ++ (laterText c.colons c.later ++ c.fraction.elim [] Fraction.text)

/-- A time has digits, colons, points and commas. -/
theorem mem_text {c : ClockForm} {x : CodePoint} (h : x ∈ c.text) :
    44 ≤ x.val ∧ x.val ≤ 58 ∧ x.val ≠ 45 := by
  have hnumber {width n : Nat} (hx : x ∈ numberText width n) :
      44 ≤ x.val ∧ x.val ≤ 58 ∧ x.val ≠ 45 := by
    have := mem_numberText hx
    omega
  rw [text, List.mem_append, List.mem_append] at h
  rcases h with h | h | h
  · exact hnumber h
  · obtain ⟨n, -, h⟩ := List.mem_flatMap.1 h
    rcases List.mem_append.1 h with h | h
    · rw [eq_of_mem_markText h]
      decide
    · exact hnumber h
  · cases hf : c.fraction with
    | none => exact absurd (hf ▸ h) List.not_mem_nil
    | some f =>
      rw [hf, Option.elim_some, Fraction.text, List.mem_append] at h
      rcases h with h | h
      · cases hm : f.mark with
        | bare => exact absurd (hm ▸ h) List.not_mem_nil
        | _ =>
          rw [hm] at h
          rw [List.mem_singleton.1 h]
          decide
      · obtain ⟨d, -, rfl⟩ := List.mem_map.1 h
        rw [val_digit]
        omega

/-- A time of ISO 8601: a fraction belongs to the seconds and follows a point or a comma. -/
def IsIso (c : ClockForm) : Prop :=
  ∀ f ∈ c.fraction, c.later.length = 2 ∧ (f.mark = .point ∨ f.mark = .comma)

/-- An offset of ISO 8601: a fraction belongs to the seconds and follows a point. -/
def IsIsoOffset (c : ClockForm) : Prop :=
  ∀ f ∈ c.fraction, c.later.length = 2 ∧ f.mark = .point

end ClockForm

/-! ### Timestamps -/

/-- The sign of an offset. -/
def signPoint (negative : Bool) : CodePoint := CodePoint.ofChar (if negative then '-' else '+')

/-- A `Z` or `z`. -/
def zuluPoint (small : Bool) : CodePoint := CodePoint.ofChar (if small then 'z' else 'Z')

/-- An offset of ISO 8601, possibly absent. -/
inductive IsIsoZone : Text → Prop
  | absent : IsIsoZone []
  | zulu (small : Bool) : IsIsoZone [zuluPoint small]
  | signed (negative : Bool) {c : ClockForm} (h : c.IsIsoOffset) :
    IsIsoZone (signPoint negative :: c.text)

/-- A timestamp of ISO 8601 is in full a date, possibly any one separator and a time, and possibly
an offset directly behind them. -/
inductive IsIsoTimestamp : Text → Prop
  | day (date : DateForm) {zone : Text} (hz : IsIsoZone zone) : IsIsoTimestamp (date.text ++ zone)
  | time (date : DateForm) (separator : CodePoint) {c : ClockForm} (hc : c.IsIso) {zone : Text}
    (hz : IsIsoZone zone) : IsIsoTimestamp (date.text ++ separator :: (c.text ++ zone))

/-! ### Characters that are passed over -/

/-- The text is empty or starts with the character 0. -/
def StartsWithNull (t : Text) : Prop := ∀ c ∈ t.head?, c.val = 0

/-- No character of the text is half of a surrogate pair. -/
def IsWhole (t : Text) : Prop := ∀ c ∈ t, c.isHalf = false

theorem isWhole_cons {c : CodePoint} {t : Text} :
    IsWhole (c :: t) ↔ c.isHalf = false ∧ IsWhole t := List.forall_mem_cons

theorem isWhole_append {s t : Text} : IsWhole (s ++ t) ↔ IsWhole s ∧ IsWhole t :=
  List.forall_mem_append

/-- The characters that may be passed over after a time: one of ASCII if it has no fraction, or
half of a surrogate pair, and any after six digits of a fraction.  A fraction that is filled up to
six digits need not have them. -/
def Passes (f : Option Fraction) (filled : Prop) (passed : Text) : Prop :=
  passed = [] ∨ (f = none ∧ ∃ c, passed = [c] ∧ (c.val < 0x80 ∨ c.isHalf = true)) ∨
    ∃ g, f = some g ∧ (6 ≤ g.digits.length ∨ filled) ∧
      (∀ c ∈ passed.head?, isAsciiDigit c.toChar = false) ∧ IsWhole passed

/-- What stands after a time, with what is passed over in it. -/
inductive LooseZone where
  | absent
  | zulu (small : Bool)
  | zuluThen (passed : Text)
  | signed (negative : Bool) (clock : ClockForm) (passed : Text)

namespace LooseZone

/-- The text of what stands after a time. -/
def text : LooseZone → Text
  | .absent => []
  | .zulu small => [zuluPoint small]
  | .zuluThen passed => zuluPoint false :: passed
  | .signed negative clock passed => signPoint negative :: (clock.text ++ passed)

/-- Characters are passed over at the end of the text only from a 0 on. -/
def Fits : LooseZone → Prop
  | .absent => True
  | .zulu _ => True
  | .zuluThen passed => StartsWithNull passed ∧ IsWhole passed
  | .signed _ clock passed => Passes clock.fraction False passed ∧ StartsWithNull passed

/-- Something is passed over, or the offset is none of ISO 8601. -/
def Deviates : LooseZone → Prop
  | .absent => False
  | .zulu _ => False
  | .zuluThen passed => passed ≠ []
  | .signed _ clock passed => ¬clock.IsIsoOffset ∨ passed ≠ []

end LooseZone

/-- A timestamp with a time, and with what is passed over in it. -/
structure LooseForm where
  date : DateForm
  separator : CodePoint
  clock : ClockForm
  passed : Text
  zone : LooseZone

namespace LooseForm

/-- The text of a timestamp. -/
def text (f : LooseForm) : Text :=
  f.date.text ++ f.separator :: (f.clock.text ++ (f.passed ++ f.zone.text))

/-- The fraction is filled up to six digits before it is read: it follows `Thh:mm:ss.`. -/
def IsFilled (f : LooseForm) : Prop :=
  f.separator = CodePoint.ofChar 'T' ∧ f.clock.colons = true ∧ f.clock.later.length = 2 ∧
    ∀ g ∈ f.clock.fraction, g.mark = .point

/-- What is passed over stands where it may: after the time and before the first sign or `Z`, and
at the end of the text only from a 0 on. -/
structure FitsAs (f : LooseForm) (filled : Prop) : Prop where
  passes : Passes f.clock.fraction filled f.passed
  unsigned : ∀ c ∈ f.passed, endsClock c.val = false
  zone_fits : f.zone.Fits
  null_of_absent : f.zone = .absent → StartsWithNull f.passed

/-- What is passed over stands where it may, whether the fraction is filled up or not. -/
def Fits (f : LooseForm) : Prop := f.FitsAs f.IsFilled

/-- The form of a text as it is read: no fraction counts as filled up, and what stands after the
time starts with a sign or a `Z`. -/
structure IsPrepared (f : LooseForm) : Prop extends f.FitsAs False where
  ends : ∀ c ∈ f.zone.text.head?, endsClock c.val = true

/-- Something is passed over, or the time or the offset is none of ISO 8601. -/
def Deviates (f : LooseForm) : Prop := f.passed ≠ [] ∨ ¬f.clock.IsIso ∨ f.zone.Deviates

/-- **A form without deviations is a timestamp of ISO 8601.** -/
theorem isIsoTimestamp_text {f : LooseForm} (h : ¬f.Deviates) : IsIsoTimestamp f.text := by
  simp only [Deviates, not_or, not_not] at h
  obtain ⟨hpassed, hclock, hzone⟩ := h
  have hz : IsIsoZone f.zone.text := by
    cases hf : f.zone with
    | absent => exact .absent
    | zulu small => exact .zulu small
    | zuluThen passed =>
      rw [hf] at hzone
      obtain rfl := not_not.1 hzone
      exact .zulu false
    | signed negative clock passed =>
      rw [hf] at hzone
      simp only [LooseZone.Deviates, not_or, not_not] at hzone
      obtain ⟨hiso, rfl⟩ := hzone
      rw [LooseZone.text, List.append_nil]
      exact .signed negative hiso
  rw [text, hpassed, List.nil_append]
  exact .time f.date f.separator hclock hz

end LooseForm

end Timestamp
end MachineCatalog
