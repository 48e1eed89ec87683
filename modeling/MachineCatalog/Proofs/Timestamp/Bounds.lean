/-
# The instants that can be read

A date and a time of day without an offset are an instant of the years 1 to 9999.
An offset of less than a day moves it, so an instant that is read lies less than a
day outside those years at most (`millis?_bounds`).  It need not lie in them: an
offset at either end of the calendar leads out of it.

No instant so near is longer from 1970 than a span of time can be
(`exceedsSpan_of_millis?`).  So reading gives an instant within those bounds, or
rejects the value as no timestamp (`parse_bounds_or_malformed`).
-/

import MachineCatalog.Proofs.Numeral
import MachineCatalog.Proofs.Timestamp.Range
import MachineCatalog.Timestamp.Parse
import Mathlib.Data.Option.Basic

namespace MachineCatalog

namespace Calendar

/-- A month ends in its year. -/
theorem daysBeforeMonth_add_le (year : Nat) {month : Nat} (h₁ : 1 ≤ month) (h₂ : month ≤ 12) :
    daysBeforeMonth year month + monthLength year month ≤ yearLength year := by
  have hall : ∀ leap, ∀ i < 12, ((monthLengths leap).take i).sum + (monthLengths leap).getD i 0 ≤
      if leap then 366 else 365 := by decide
  rw [daysBeforeMonth_eq, monthLength, if_neg (by omega), yearLength]
  exact hall (isLeap year) (month - 1) (by omega)

/-- A month ends before the next one begins. -/
theorem daysBeforeMonth_add_le_of_lt (year : Nat) {month next : Nat} (h₁ : 1 ≤ month)
    (h : month < next) (h₂ : next ≤ 12) :
    daysBeforeMonth year month + monthLength year month ≤ daysBeforeMonth year next := by
  have hall : ∀ leap, ∀ j < 12, ∀ i < j, ((monthLengths leap).take i).sum +
      (monthLengths leap).getD i 0 ≤ ((monthLengths leap).take j).sum := by decide
  rw [daysBeforeMonth_eq, daysBeforeMonth_eq, monthLength, if_neg (by omega)]
  exact hall (isLeap year) (next - 1) (by omega) (month - 1) (by omega)

end Calendar

namespace Date

open Calendar

/-- A date comes before the end of its year. -/
theorem ordinal_lt_daysBeforeYear_succ (d : Date) : d.ordinal < daysBeforeYear (d.year + 1) := by
  obtain ⟨hy, -, hm, hm', hd, hd'⟩ := d.real
  have hmonth := daysBeforeMonth_add_le d.year hm hm'
  rw [daysBeforeYear_succ hy, ordinal]
  omega

theorem ordinal_lt (d : Date) : d.ordinal < dayCount := by
  have hyear := daysBeforeYear_le (Nat.le_add_left 1 d.year) (Nat.succ_le_succ d.real.2.1)
  have hend : daysBeforeYear 10000 = dayCount := rfl
  exact hend ▸ d.ordinal_lt_daysBeforeYear_succ.trans_le hyear

theorem dayNumber_bounds (d : Date) :
    -(epochOrdinal : Int) ≤ d.dayNumber ∧ d.dayNumber < endDay := by
  have h := d.ordinal_lt
  simp only [dayNumber, epochOrdinal, endDay, dayCount] at *
  omega

end Date

namespace TimeOfDay

theorem micros_lt {t : TimeOfDay} (h : t.IsReal) : t.micros < Moment.microsPerDay := by
  obtain ⟨hh, hm, hs, hu⟩ := h
  simp only [micros, Moment.microsPerDay]
  omega

theorem isReal_of_realTime? {t u : TimeOfDay} (h : Timestamp.realTime? t = some u) : u.IsReal := by
  rw [Timestamp.realTime?] at h
  split_ifs at h with hr
  obtain rfl := Option.some.inj h
  exact hr

end TimeOfDay

namespace Timestamp

/-- An offset is shorter than a day. -/
theorem offset?_bounds {negative : Bool} {s : List Nat} {offset : Int}
    (h : offset? negative s = some offset) :
    -(Moment.microsPerDay : Int) < offset ∧ offset < Moment.microsPerDay := by
  obtain ⟨reading, -, h⟩ := Option.bind_eq_some_iff.1 h
  dsimp only at h
  split_ifs at h with _ _ hday
  · obtain rfl := Option.some.inj h
    decide
  · obtain rfl := Option.some.inj h
    omega
  · obtain rfl := Option.some.inj h
    omega

/-- A clock reading without an offset. -/
theorem bounds_of_utc {t time : TimeOfDay} {offset : Int}
    (h : (realTime? t >>= fun t => pure (t, (0 : Int))) = some (time, offset)) :
    time.IsReal ∧ -(Moment.microsPerDay : Int) < offset ∧ offset < Moment.microsPerDay := by
  obtain ⟨u, hu, h⟩ := Option.bind_eq_some_iff.1 h
  cases h
  exact ⟨TimeOfDay.isReal_of_realTime? hu, by decide⟩

/-- A time that is read is a time of day, with an offset that is shorter than a day. -/
theorem time?_bounds {s : List Nat} {time : TimeOfDay} {offset : Int}
    (h : time? s = some (time, offset)) :
    time.IsReal ∧ -(Moment.microsPerDay : Int) < offset ∧ offset < Moment.microsPerDay := by
  rw [time?] at h
  dsimp only at h
  split at h
  · obtain ⟨reading, -, h⟩ := Option.bind_eq_some_iff.1 h
    split_ifs at h
    · cases h
    · exact bounds_of_utc h
  · obtain ⟨reading, -, h⟩ := Option.bind_eq_some_iff.1 h
    split_ifs at h
    · cases h
    · exact bounds_of_utc h
  · obtain ⟨reading, -, h⟩ := Option.bind_eq_some_iff.1 h
    obtain ⟨o, ho, h⟩ := Option.bind_eq_some_iff.1 h
    obtain ⟨t, ht, h⟩ := Option.bind_eq_some_iff.1 h
    cases h
    exact ⟨TimeOfDay.isReal_of_realTime? ht, offset?_bounds ho⟩

/-- **An instant is read less than a day outside the years 1 to 9999 at most.** -/
theorem instant?_bounds {s : List Nat} {micros : Int} (h : instant? s = some micros) :
    -(Date.epochOrdinal + 1 : Int) * Moment.microsPerDay < micros ∧
      micros < (Date.endDay + 1) * Moment.microsPerDay := by
  rw [instant?] at h
  split_ifs at h
  · cases h
  obtain ⟨width, -, h⟩ := Option.bind_eq_some_iff.1 h
  obtain ⟨date, -, h⟩ := Option.bind_eq_some_iff.1 h
  obtain ⟨h₁, h₂⟩ := date.dayNumber_bounds
  simp only [Date.epochOrdinal, Date.endDay, Moment.microsPerDay] at h₁ h₂ ⊢
  split at h
  · obtain rfl := Option.some.inj h
    simp only [Moment.microsPerDay]
    omega
  · obtain ⟨⟨time, offset⟩, ht, h⟩ := Option.bind_eq_some_iff.1 h
    obtain ⟨hr, ho₁, ho₂⟩ := time?_bounds ht
    have hm := TimeOfDay.micros_lt hr
    obtain rfl := Option.some.inj h
    simp only [Moment.microsPerDay] at *
    omega

/-- The milliseconds that a text writes. -/
theorem millis?_bounds {t : Text} {millis : Int} (h : millis? t = some millis) :
    firstMillis - 86400000 ≤ millis ∧ millis ≤ lastMillis + 86400000 := by
  rw [millis?] at h
  split_ifs at h
  obtain ⟨micros, hi, rfl⟩ := Option.map_eq_some_iff.1 h
  have hb := instant?_bounds hi
  simp only [Date.epochOrdinal, Date.endDay, Moment.microsPerDay, firstMillis, lastMillis] at *
  omega

/-- No instant that is read is too far away to be measured. -/
theorem exceedsSpan_of_millis? {t : Text} {millis : Int} (h : millis? t = some millis) :
    exceedsSpan millis = false := by
  have hb := millis?_bounds h
  simp only [firstMillis, lastMillis] at hb
  rw [exceedsSpan, longestSpan, decide_eq_false_iff_not]
  omega

/-- So what is read needs no measuring. -/
theorem parse_eq (value : Value) : parse value =
    match value with
    | .text s =>
      match millis? s with
      | some millis => .ok millis
      | none => reject (.malformedTimestamp value)
    | _ => reject (.malformedTimestamp value) := by
  cases value with
  | text s =>
    cases h : millis? s with
    | none => simp only [parse, h]
    | some millis => simp only [parse, h, exceedsSpan_of_millis? h, Bool.false_eq_true, if_false]
  | _ => rfl

/-- Only a text that writes an instant is read as one. -/
theorem parse_eq_ok_iff {value : Value} {millis : Int} :
    parse value = .ok millis ↔ ∃ t, value = .text t ∧ millis? t = some millis := by
  rw [parse_eq]
  cases value with
  | text s => cases h : millis? s <;> simp [h]
  | _ => simp

theorem parse_of_millis? {t : Text} {millis : Int} (h : millis? t = some millis) :
    parse (.text t) = .ok millis := parse_eq_ok_iff.2 ⟨t, rfl, h⟩

/-- Milliseconds that are read are short enough to be shown. -/
theorem isLongInteger_of_millis? {t : Text} {millis : Int} (h : millis? t = some millis) :
    Value.isLongInteger millis = false := by
  have hb := millis?_bounds h
  have hlt : millis.natAbs < 10 ^ 15 := by
    simp only [firstMillis, lastMillis] at hb
    omega
  have hlimit : 10 ^ 15 ≤ 10 ^ Text.decimalDigitLimit :=
    Nat.pow_le_pow_right (by decide) (by decide)
  exact Numeral.isLongInteger_eq_false_iff.2 (hlt.trans_le hlimit)

/-- Unset, or milliseconds that a text writes. -/
def IsRead (millis : Value) : Prop := millis = .null ∨ ∃ t n, millis = .int n ∧ millis? t = some n

theorem isRead_of_parse {v : Value} {n : Int} (h : parse v = .ok n) : IsRead (.int n) := by
  obtain ⟨t, -, ht⟩ := parse_eq_ok_iff.1 h
  exact .inr ⟨t, n, rfl, ht⟩

/-- **A timestamp is read as an instant near the years 1 to 9999, or it is malformed.**  It is
less than a day outside of them, so it is never out of range. -/
theorem parse_bounds_or_malformed {value : Value} (h : value.holdsLongInteger = false) :
    ((∃ millis, parse value = .ok millis ∧
        firstMillis - 86400000 ≤ millis ∧ millis < lastMillis + 1 + 86400000) ∨
      parse value = .error (.rejected (.malformedTimestamp value))) ∧
      ∀ t millis, value = .text t → millis? t = some millis → exceedsSpan millis = false := by
  have hmalformed : (reject (.malformedTimestamp value) : Except Failure Int) =
      .error (.rejected (.malformedTimestamp value)) := Rejection.IsReportable.reject_eq h
  refine ⟨?_, fun _ _ _ ht => exceedsSpan_of_millis? ht⟩
  rw [parse_eq]
  split
  · split
    · rename_i millis ht
      have hb := millis?_bounds ht
      exact .inl ⟨millis, rfl, hb.1, by omega⟩
    · exact .inr hmalformed
  · exact .inr hmalformed

/-- The longest offset at the first midnight leads a whole day out of the calendar. -/
theorem parse_bounds_or_malformed_firstMidnight :
    (Value.text "0001-01-01T00:00:00+23:59:59.999999").holdsLongInteger = false ∧
      parse (.text "0001-01-01T00:00:00+23:59:59.999999") = .ok (firstMillis - 86400000) ∧
      ∃ millis, parse (.text "0001-01-01T00:00:00+23:59:59.999999") = .ok millis ∧
        firstMillis - 86400000 ≤ millis ∧ millis < lastMillis + 1 + 86400000 := by
  have hparse : parse (.text "0001-01-01T00:00:00+23:59:59.999999") =
      .ok (firstMillis - 86400000) := parse_of_millis? (by decide +kernel)
  have hlong : (Value.text "0001-01-01T00:00:00+23:59:59.999999").holdsLongInteger = false := rfl
  have h := parse_bounds_or_malformed hlong
  exact ⟨hlong, hparse, h.1.resolve_right fun he => absurd (hparse.symm.trans he) nofun⟩

end Timestamp
end MachineCatalog
