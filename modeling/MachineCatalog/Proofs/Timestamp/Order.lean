/-
# Written timestamps sort as their instants do

Each number in a written timestamp takes as many digits as the greatest of its kind, so
two timestamps are compared number by number, from the year down to the millisecond
(`Text.padded_append_lt_iff`).  Dates follow each other in the order of year, month and
day (`Date.ordinal_lt_iff`), so their texts sort as they do
(`Date.text_append_lt_iff`), and so do those of times
(`TimeOfDay.text_append_lt_iff`).  Thus the texts of two instants, all of one length, are
in the order of the instants (`Timestamp.render_lt_render_iff`).
-/

import MachineCatalog.Proofs.Timestamp.Bounds
import MachineCatalog.Proofs.Timestamp.RoundTrip

namespace MachineCatalog

namespace Text

/-- Texts that start with equally long ones are compared by these first. -/
theorem append_lt_append_iff {s t : Text} (h : s.length = t.length) (u v : Text) :
    s ++ u < t ++ v ↔ s < t ∨ s = t ∧ u < v := by
  induction s generalizing t with
  | nil =>
    obtain rfl := List.length_eq_zero_iff.1 h.symm
    simp
  | cons c s ih =>
    cases t with
    | nil => exact absurd h nofun
    | cons d t =>
      rw [List.cons_append, List.cons_append, List.cons_lt_cons_iff, List.cons_lt_cons_iff,
        ih (Nat.succ.inj h), List.cons.injEq]
      simp only [and_or_left, and_assoc, or_assoc]

/-- A common beginning does not count. -/
theorem append_lt_append_left_iff (s u v : Text) : s ++ u < s ++ v ↔ u < v := by
  rw [append_lt_append_iff rfl]
  simp only [List.lt_irrefl, false_or, true_and]

theorem places_inj {w m n : Nat} (hm : m < 10 ^ w) (hn : n < 10 ^ w) :
    places w m = places w n ↔ m = n := by
  refine ⟨fun h => ?_, fun h => h ▸ rfl⟩
  rw [← ofDigitValues_places hm, h, ofDigitValues_places hn]

theorem digit_lt_digit_iff (d e : Fin 10) : digit d < digit e ↔ d < e := by
  rw [Fin.lt_def, Fin.lt_def, val_digit, val_digit]
  omega

theorem digit_injective (d e : Fin 10) (h : digit d = digit e) : d = e := by
  have hv := congrArg Fin.val h
  rw [val_digit, val_digit] at hv
  exact Fin.ext (by omega)

/-- **Numbers in equally many digits are in the order of their texts.** -/
theorem map_digit_places_lt_iff {w m n : Nat} (hm : m < 10 ^ w) (hn : n < 10 ^ w) :
    (places w m).map digit < (places w n).map digit ↔ m < n := by
  induction w generalizing m n with
  | zero =>
    simp only [places, List.map_nil]
    simp
    omega
  | succ w ih =>
    have hm' : m / 10 < 10 ^ w := by rw [Nat.pow_succ] at hm; omega
    have hn' : n / 10 < 10 ^ w := by rw [Nat.pow_succ] at hn; omega
    rw [places, places, List.map_append, List.map_append, append_lt_append_iff (by simp),
      ih hm' hn', List.map_inj_right digit_injective, places_inj hm' hn',
      List.map_singleton, List.map_singleton, List.cons_lt_cons_iff, digit_lt_digit_iff]
    simp only [Fin.lt_def, Fin.val_ofNat, List.lt_irrefl, and_false, or_false]
    omega

theorem length_padded {w n : Nat} (hw : 0 < w) (h : n < 10 ^ w) : (padded w n).length = w := by
  rw [padded_eq_map_digit hw h, List.length_map, length_places]

/-- Texts that start with padded numbers are compared by these first. -/
theorem padded_append_lt_iff {w m n : Nat} (hw : 0 < w) (hm : m < 10 ^ w) (hn : n < 10 ^ w)
    (u v : Text) : padded w m ++ u < padded w n ++ v ↔ m < n ∨ m = n ∧ u < v := by
  rw [append_lt_append_iff (by rw [length_padded hw hm, length_padded hw hn]),
    padded_eq_map_digit hw hm, padded_eq_map_digit hw hn, map_digit_places_lt_iff hm hn,
    List.map_inj_right digit_injective, places_inj hm hn]

end Text

namespace Date

open Calendar Text

theorem ordinal_lt_of_year_lt {d e : Date} (h : d.year < e.year) : d.ordinal < e.ordinal := by
  calc d.ordinal < daysBeforeYear (d.year + 1) := d.ordinal_lt_daysBeforeYear_succ
    _ ≤ daysBeforeYear e.year := daysBeforeYear_le (Nat.le_add_left 1 d.year) h
    _ ≤ e.ordinal := by rw [ordinal]; omega

theorem ordinal_lt_of_month_lt {d e : Date} (hy : d.year = e.year) (h : d.month < e.month) :
    d.ordinal < e.ordinal := by
  obtain ⟨-, -, hm, hm', hd, hd'⟩ := d.real
  have hmonth := daysBeforeMonth_add_le_of_lt d.year hm h e.real.2.2.2.1
  rw [ordinal, ordinal, ← hy]
  omega

/-- **Dates follow each other in the order of year, month and day.** -/
theorem ordinal_lt_iff (d e : Date) : d.ordinal < e.ordinal ↔ d.year < e.year ∨
    d.year = e.year ∧ (d.month < e.month ∨ d.month = e.month ∧ d.day < e.day) := by
  rcases lt_trichotomy d.year e.year with hy | hy | hy
  · have := ordinal_lt_of_year_lt hy
    omega
  · rcases lt_trichotomy d.month e.month with hm | hm | hm
    · have := ordinal_lt_of_month_lt hy hm
      omega
    · have hd := d.real.2.2.2.2.1
      have he := e.real.2.2.2.2.1
      rw [ordinal, ordinal, hy, hm]
      omega
    · have := ordinal_lt_of_month_lt hy.symm hm
      omega
  · have := ordinal_lt_of_year_lt hy
    omega

theorem ordinal_eq_iff (d e : Date) :
    d.ordinal = e.ordinal ↔ d.year = e.year ∧ d.month = e.month ∧ d.day = e.day := by
  have hlt := ordinal_lt_iff d e
  have hgt := ordinal_lt_iff e d
  omega

theorem length_text (d : Date) : d.text.length = 10 := by
  simp only [text, List.length_append, length_padded (show 0 < 4 by decide) d.year_lt,
    length_padded (show 0 < 2 by decide) d.month_lt, length_padded (show 0 < 2 by decide) d.day_lt]
  rfl

/-- **Texts that start with dates are compared by these first.** -/
theorem text_append_lt_iff (d e : Date) (u v : Text) : d.text ++ u < e.text ++ v ↔
    d.ordinal < e.ordinal ∨ d.ordinal = e.ordinal ∧ u < v := by
  simp only [text, List.append_assoc, append_lt_append_left_iff,
    padded_append_lt_iff (show 0 < 4 by decide) d.year_lt e.year_lt,
    padded_append_lt_iff (show 0 < 2 by decide) d.month_lt e.month_lt,
    padded_append_lt_iff (show 0 < 2 by decide) d.day_lt e.day_lt]
  rw [ordinal_lt_iff, ordinal_eq_iff]
  simp only [and_or_left, and_assoc, or_assoc]

end Date

namespace TimeOfDay

open Text

/-- The number of the second in the day. -/
def secondOfDay (t : TimeOfDay) : Nat := (t.hour * 60 + t.minute) * 60 + t.second

/-- The parts of a time in as many digits as they are written with. -/
theorem IsReal.parts_lt {t : TimeOfDay} (h : t.IsReal) :
    t.hour < 10 ^ 2 ∧ t.minute < 10 ^ 2 ∧ t.second < 10 ^ 2 ∧ t.micro / 1000 < 10 ^ 3 := by
  obtain ⟨hh, hm, hs, hu⟩ := h
  omega

theorem length_text {t : TimeOfDay} (h : t.IsReal) : t.text.length = 8 := by
  obtain ⟨hh, hm, hs, -⟩ := h.parts_lt
  simp only [text, List.length_append, length_padded (show 0 < 2 by decide) hh,
    length_padded (show 0 < 2 by decide) hm, length_padded (show 0 < 2 by decide) hs]
  rfl

/-- **Texts that start with times are compared by these first.** -/
theorem text_append_lt_iff {s t : TimeOfDay} (hs : s.IsReal) (ht : t.IsReal) (u v : Text) :
    s.text ++ u < t.text ++ v ↔
      s.secondOfDay < t.secondOfDay ∨ s.secondOfDay = t.secondOfDay ∧ u < v := by
  obtain ⟨hh, hm, hsec, -⟩ := hs.parts_lt
  obtain ⟨hh', hm', hsec', -⟩ := ht.parts_lt
  simp only [text, List.append_assoc, append_lt_append_left_iff,
    padded_append_lt_iff (show 0 < 2 by decide) hh hh',
    padded_append_lt_iff (show 0 < 2 by decide) hm hm',
    padded_append_lt_iff (show 0 < 2 by decide) hsec hsec']
  have hlt : s.secondOfDay < t.secondOfDay ↔ s.hour < t.hour ∨ s.hour = t.hour ∧
      (s.minute < t.minute ∨ s.minute = t.minute ∧ s.second < t.second) := by
    simp only [IsReal, secondOfDay] at *
    omega
  have heq : s.secondOfDay = t.secondOfDay ↔
      s.hour = t.hour ∧ s.minute = t.minute ∧ s.second = t.second := by
    simp only [IsReal, secondOfDay] at *
    omega
  rw [hlt, heq]
  simp only [and_or_left, and_assoc, or_assoc]

end TimeOfDay

namespace Timestamp

open Text

theorem length_stamp (date : Date) {time : TimeOfDay} (ht : time.IsReal) :
    (stamp date time).length = 29 := by
  simp only [stamp, List.length_append, date.length_text, TimeOfDay.length_text ht,
    length_padded (show 0 < 3 by decide) ht.parts_lt.2.2.2]
  rfl

/-- **Timestamps are compared by their dates first**, and on one day by their times. -/
theorem stamp_lt_stamp_iff (d e : Date) {s t : TimeOfDay} (hs : s.IsReal) (ht : t.IsReal)
    (hs' : s.micro % 1000 = 0) (ht' : t.micro % 1000 = 0) :
    stamp d s < stamp e t ↔
      d.ordinal < e.ordinal ∨ d.ordinal = e.ordinal ∧ s.micros < t.micros := by
  have hirrefl : ¬("+00:00" : Text) < "+00:00" := List.lt_irrefl _
  have htimes : s.micros < t.micros ↔ s.secondOfDay < t.secondOfDay ∨
      s.secondOfDay = t.secondOfDay ∧ s.micro / 1000 < t.micro / 1000 := by
    simp only [TimeOfDay.IsReal, TimeOfDay.micros, TimeOfDay.secondOfDay] at *
    omega
  rw [htimes]
  simp only [stamp, List.append_assoc, append_lt_append_left_iff, Date.text_append_lt_iff,
    TimeOfDay.text_append_lt_iff hs ht,
    padded_append_lt_iff (show 0 < 3 by decide) hs.parts_lt.2.2.2 ht.parts_lt.2.2.2, hirrefl,
    and_false, or_false]

/-- **Written timestamps sort as their instants do.**  All of them have one length, and no two
instants have one text. -/
theorem render_lt_render_iff {a b : Int} (ha : InRange a) (hb : InRange b) :
    ∃ s t, render (.int a) = .ok s ∧ render (.int b) = .ok t ∧ (a < b ↔ s < t) ∧
      (s = t → a = b) ∧ s.length = 29 ∧ t.length = 29 := by
  obtain ⟨date, time, hr, ht, hmicro, hsum⟩ := exists_renderMillis? ha
  obtain ⟨date', time', hr', ht', hmicro', hsum'⟩ := exists_renderMillis? hb
  have hlt := TimeOfDay.micros_lt ht
  have hlt' := TimeOfDay.micros_lt ht'
  refine ⟨stamp date time, stamp date' time', by simp only [render, hr], by simp only [render, hr'],
    ?_, ?_, length_stamp date ht, length_stamp date' ht'⟩
  · rw [stamp_lt_stamp_iff date date' ht ht' hmicro hmicro']
    simp only [Date.dayNumber, Moment.microsPerDay] at hsum hsum' hlt hlt'
    omega
  · intro h
    rw [← h] at hr'
    exact renderMillis?_injective hr hr'

/-- The instants before and at the beginning of 1970. -/
theorem render_lt_render_iff_epoch : InRange (-1) ∧ InRange 0 ∧
    ∃ s t, render (.int (-1)) = .ok s ∧ render (.int 0) = .ok t ∧ s < t ∧ s.length = 29 := by
  obtain ⟨s, t, hs, ht, hlt, -, hlength, -⟩ :=
    render_lt_render_iff (show InRange (-1) by decide) (show InRange 0 by decide)
  exact ⟨by decide, by decide, s, t, hs, ht, hlt.1 (by decide), hlength⟩

end Timestamp
end MachineCatalog
