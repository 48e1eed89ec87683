/-
# The instants that can be written

A timestamp is written when its instant falls in the years 1 to 9999, that is
when its milliseconds lie between `firstMillis` and `lastMillis`, and at no other
time (`exists_renderMillis?`, `renderMillis?_eq_none`).  The text shows a real
date and a real time of day, which together are the instant again.
-/

import MachineCatalog.Proofs.Calendar.Ordinal
import MachineCatalog.Proofs.Text.Digits
import MachineCatalog.Timestamp.Render

namespace MachineCatalog

namespace Date

open Calendar

/-- The day number of 10000-01-01, the first that no date has. -/
def endDay : Int := 2932897

theorem exists_ofDayNumber? {n : Int} (h₁ : -(epochOrdinal : Int) ≤ n) (h₂ : n < endDay) :
    ∃ d, ofDayNumber? n = some d ∧ d.dayNumber = n := by
  have hn : (n + epochOrdinal).toNat < dayCount := by
    simp only [epochOrdinal, endDay, dayCount] at *
    omega
  obtain ⟨d, hd, ho⟩ := exists_ofOrdinal? hn
  refine ⟨d, ?_, ?_⟩
  · rw [ofDayNumber?, if_neg (by omega), hd]
  · rw [dayNumber, ho]
    omega

theorem ofDayNumber?_eq_none {n : Int} (h : n < -(epochOrdinal : Int) ∨ endDay ≤ n) :
    ofDayNumber? n = none := by
  rw [ofDayNumber?]
  split_ifs with hn
  · rfl
  · refine ofOrdinal?_eq_none ?_
    simp only [epochOrdinal, endDay, dayCount] at *
    omega

end Date

namespace TimeOfDay

theorem isReal_ofMicros {n : Nat} (h : n < Moment.microsPerDay) : (ofMicros n).IsReal := by
  simp only [Moment.microsPerDay] at h
  simp only [IsReal, ofMicros]
  omega

@[simp] theorem micros_ofMicros (n : Nat) : (ofMicros n).micros = n := by
  simp only [micros, ofMicros]
  omega

end TimeOfDay

namespace Timestamp

/-- The milliseconds of 0001-01-01T00:00:00.000. -/
def firstMillis : Int := -62135596800000

/-- The milliseconds of 9999-12-31T23:59:59.999. -/
def lastMillis : Int := 253402300799999

/-- The instant falls in the years 1 to 9999. -/
def InRange (millis : Int) : Prop := firstMillis ≤ millis ∧ millis ≤ lastMillis

instance (millis : Int) : Decidable (InRange millis) := by unfold InRange; infer_instance

/-- The text of a date and a time of day, to the millisecond, in UTC. -/
def stamp (date : Date) (time : TimeOfDay) : Text :=
  date.text ++ "T" ++ time.text ++ "." ++ Text.padded 3 (time.micro / 1000) ++ "+00:00"

/-- The day of an instant in the years 1 to 9999 has a date. -/
theorem inRange_iff (millis : Int) :
    InRange millis ↔ -(Date.epochOrdinal : Int) ≤ millis * 1000 / Moment.microsPerDay ∧
      millis * 1000 / Moment.microsPerDay < Date.endDay := by
  simp only [InRange, firstMillis, lastMillis, Date.epochOrdinal, Moment.microsPerDay, Date.endDay]
  omega

/-- **An instant in the years 1 to 9999 is written**, as the date and the time of
day that make it up. -/
theorem exists_renderMillis? {millis : Int} (h : InRange millis) :
    ∃ (date : Date) (time : TimeOfDay), renderMillis? millis = some (stamp date time) ∧
      time.IsReal ∧ time.micro % 1000 = 0 ∧
      date.dayNumber * Moment.microsPerDay + time.micros = millis * 1000 := by
  obtain ⟨h₁, h₂⟩ := (inRange_iff millis).1 h
  obtain ⟨d, hd, hn⟩ := Date.exists_ofDayNumber? h₁ h₂
  have hday : (0 : Int) < Moment.microsPerDay := by decide
  have hpos : 0 ≤ millis * 1000 % Moment.microsPerDay := Int.emod_nonneg _ hday.ne'
  have hlt : millis * 1000 % Moment.microsPerDay < Moment.microsPerDay := Int.emod_lt_of_pos _ hday
  refine ⟨d, TimeOfDay.ofMicros (millis * 1000 % Moment.microsPerDay).toNat, ?_,
    TimeOfDay.isReal_ofMicros (by omega), ?_, ?_⟩
  · rw [renderMillis?, renderMicros?, Moment.ofInstant?, hd]
    rfl
  · simp only [TimeOfDay.ofMicros, Moment.microsPerDay]
    omega
  · rw [hn, TimeOfDay.micros_ofMicros, Int.toNat_of_nonneg hpos, Int.mul_comm]
    exact Int.mul_ediv_add_emod ..

theorem renderMillis?_eq_none {millis : Int} (h : ¬InRange millis) :
    renderMillis? millis = none := by
  rw [inRange_iff] at h
  rw [renderMillis?, renderMicros?, Moment.ofInstant?, Date.ofDayNumber?_eq_none (by omega)]
  rfl

/-- Milliseconds outside the years 1 to 9999 are rejected as out of range, unless
they are too long to be shown. -/
theorem render_int (millis : Int) :
    (∃ t, renderMillis? millis = some t ∧ render (.int millis) = .ok t) ∨
      (¬InRange millis ∧ render (.int millis) = reject (.timestampRange (.int millis))) := by
  by_cases h : InRange millis
  · obtain ⟨date, time, hr, -⟩ := exists_renderMillis? h
    exact .inl ⟨_, hr, by simp only [render, hr]⟩
  · exact .inr ⟨h, by simp only [render, renderMillis?_eq_none h]⟩

end Timestamp
end MachineCatalog
