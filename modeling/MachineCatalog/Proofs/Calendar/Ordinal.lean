/-
# Days and dates correspond

The days from 0001-01-01 on are numbered without gaps: every number below
`Calendar.dayCount` is the ordinal of a date (`Date.exists_ofOrdinal?`), and no
number from there on is one (`Date.ofOrdinal?_eq_none`).

`Date.ofOrdinal?` counts off periods of 400, 100, 4 and 1 years.  What is left
after them is a day of the year (`Date.exists_year`), and the months of that year
are counted off in turn (`Date.splitMonths_spec`).
-/

import MachineCatalog.Calendar.Moment
import Mathlib.Algebra.Order.Ring.Nat

namespace MachineCatalog

namespace Calendar

/-- The days of a year. -/
def yearLength (year : Nat) : Nat := if isLeap year then 366 else 365

/-- The days of the years 1 to 9999. -/
def dayCount : Nat := 3652059

theorem isLeap_iff (year : Nat) :
    isLeap year = true ↔ year % 4 = 0 ∧ (year % 100 ≠ 0 ∨ year % 400 = 0) := by
  simp [isLeap]

theorem sum_monthLengths (year : Nat) : (monthLengths (isLeap year)).sum = yearLength year := by
  rw [yearLength]
  cases isLeap year <;> rfl

theorem daysBeforeMonth_eq (year month : Nat) :
    daysBeforeMonth year month = ((monthLengths (isLeap year)).take (month - 1)).sum :=
  List.sum_eq_foldl_nat.symm

theorem length_monthLengths (leap : Bool) : (monthLengths leap).length = 12 := rfl

theorem monthLength_le (year month : Nat) : monthLength year month ≤ 31 := by
  have hall : ∀ leap, ∀ len ∈ monthLengths leap, len ≤ 31 := by decide
  rw [monthLength, List.getD_eq_getElem?_getD]
  split_ifs
  · exact Nat.zero_le _
  · cases h : (monthLengths (isLeap year))[month - 1]? with
    | none => exact Nat.zero_le _
    | some len => exact hall _ len (List.mem_of_getElem? h)

/-- The days before a year whose number is given by its periods. -/
theorem daysBeforeYear_periods {a b c e : Nat} (hb : b ≤ 3) (hc : c ≤ 24) (he : e ≤ 3) :
    daysBeforeYear (a * 400 + b * 100 + c * 4 + e + 1) =
      146097 * a + 36524 * b + 1461 * c + 365 * e := by
  have h4 : (a * 400 + b * 100 + c * 4 + e) / 4 = 100 * a + 25 * b + c := by omega
  have h100 : (a * 400 + b * 100 + c * 4 + e) / 100 = 4 * a + b := by omega
  have h400 : (a * 400 + b * 100 + c * 4 + e) / 400 = a := by omega
  simp only [daysBeforeYear, Nat.add_sub_cancel, h4, h100, h400]
  omega

/-- The last of four years is a leap year, but not the last of a century that is
not the last of four. -/
theorem yearLength_periods {a b c e : Nat} (hb : b ≤ 3) (hc : c ≤ 24) (he : e ≤ 3) :
    yearLength (a * 400 + b * 100 + c * 4 + e + 1) =
      if e = 3 ∧ (c = 24 → b = 3) then 366 else 365 := by
  have hl : isLeap (a * 400 + b * 100 + c * 4 + e + 1) = true ↔ e = 3 ∧ (c = 24 → b = 3) := by
    rw [isLeap_iff]
    omega
  simp only [yearLength, hl]

/-- A year ends where the next one begins. -/
theorem daysBeforeYear_succ {year : Nat} (h : 1 ≤ year) :
    daysBeforeYear (year + 1) = daysBeforeYear year + yearLength year := by
  obtain ⟨y, rfl⟩ := Nat.exists_eq_add_of_le' h
  have h4 : (y + 1) / 4 = y / 4 + if (y + 1) % 4 = 0 then 1 else 0 := by split_ifs <;> omega
  have h100 : (y + 1) / 100 = y / 100 + if (y + 1) % 100 = 0 then 1 else 0 := by split_ifs <;> omega
  have h400 : (y + 1) / 400 = y / 400 + if (y + 1) % 400 = 0 then 1 else 0 := by split_ifs <;> omega
  have hle : y / 100 ≤ y / 4 := by omega
  simp only [daysBeforeYear, yearLength, isLeap_iff, Nat.add_sub_cancel, h4, h100, h400]
  clear h4 h100 h400
  split_ifs <;> omega

theorem daysBeforeYear_le {a b : Nat} (ha : 1 ≤ a) (h : a ≤ b) :
    daysBeforeYear a ≤ daysBeforeYear b := by
  induction b, h using Nat.le_induction with
  | base => exact le_rfl
  | succ b hab ih =>
    rw [daysBeforeYear_succ (ha.trans hab)]
    omega

end Calendar

namespace Date

open Calendar

theorem year_lt (d : Date) : d.year < 10 ^ 4 := Nat.lt_succ_of_le d.real.2.1

theorem month_lt (d : Date) : d.month < 10 ^ 2 :=
  d.real.2.2.2.1.trans_lt (by decide)

theorem day_lt (d : Date) : d.day < 10 ^ 2 :=
  (d.real.2.2.2.2.2.trans (monthLength_le ..)).trans_lt (by decide)

/-- **Counting off months**: a day of the year is a day of one of its months. -/
theorem splitMonths_spec {months : List Nat} {rest : Nat} (h : rest < months.sum) :
    ∃ m d, splitMonths months rest = (m, d) ∧ 1 ≤ m ∧ m ≤ months.length ∧ 1 ≤ d ∧
      d ≤ months.getD (m - 1) 0 ∧ (months.take (m - 1)).sum + (d - 1) = rest := by
  induction months generalizing rest with
  | nil => simp at h
  | cons len months ih =>
    rw [splitMonths]
    split_ifs with hlt
    · exact ⟨1, rest + 1, rfl, le_rfl, by simp, by omega, by simpa using Nat.succ_le_of_lt hlt,
        by simp⟩
    · rw [List.sum_cons] at h
      obtain ⟨m, d, he, hm, hml, hd, hdl, hs⟩ := ih (show rest - len < months.sum by omega)
      obtain ⟨k, rfl⟩ := Nat.exists_eq_add_of_le' hm
      refine ⟨k + 1 + 1, d, by rw [he], by omega, by simpa using hml, hd, by simpa using hdl, ?_⟩
      simp only [Nat.add_sub_cancel, List.take_succ_cons, List.sum_cons] at hs ⊢
      omega

/-- **Counting off years**: an ordinal is a day of one year.  The last period of
100 years and the last of 1 are a day longer, and `min` keeps that day in them. -/
theorem exists_year (n : Nat) :
    ∃ year rest, 1 ≤ year ∧ rest < yearLength year ∧ daysBeforeYear year + rest = n ∧
      ofOrdinal? n =
        ofParts? year (splitMonths (monthLengths (isLeap year)) rest).1
          (splitMonths (monthLengths (isLeap year)) rest).2 := by
  have hb : min (n % 146097 / 36524) 3 ≤ 3 := Nat.min_le_right ..
  have hc : (n % 146097 - min (n % 146097 / 36524) 3 * 36524) / 1461 ≤ 24 := by omega
  have he : min ((n % 146097 - min (n % 146097 / 36524) 3 * 36524) % 1461 / 365) 3 ≤ 3 :=
    Nat.min_le_right ..
  refine ⟨_, _, ?_, ?_, ?_, rfl⟩
  · exact Nat.le_add_left ..
  · rw [yearLength_periods hb hc he]
    split_ifs <;> omega
  · rw [daysBeforeYear_periods hb hc he]
    omega

/-- **Every day of the years 1 to 9999 has a date.** -/
theorem exists_ofOrdinal? {n : Nat} (h : n < dayCount) :
    ∃ d, ofOrdinal? n = some d ∧ d.ordinal = n := by
  obtain ⟨year, rest, hy, hrest, hn, he⟩ := exists_year n
  have hyear : year ≤ 9999 := by
    by_contra hlt
    have h1 := daysBeforeYear_le (by decide) (show 10000 ≤ year by omega)
    have h2 : daysBeforeYear 10000 = dayCount := rfl
    omega
  rw [← sum_monthLengths] at hrest
  obtain ⟨m, d, hs, hm, hml, hd, hdl, hsum⟩ := splitMonths_spec hrest
  rw [length_monthLengths] at hml
  rw [hs] at he
  have hreal : 1 ≤ year ∧ year ≤ 9999 ∧ 1 ≤ m ∧ m ≤ 12 ∧ 1 ≤ d ∧ d ≤ monthLength year m := by
    refine ⟨hy, hyear, hm, hml, hd, ?_⟩
    rwa [monthLength, if_neg (by omega)]
  refine ⟨⟨year, m, d, hreal⟩, ?_, ?_⟩
  · rw [he, ofParts?, dif_pos hreal]
  · rw [ordinal, daysBeforeMonth_eq, Nat.add_assoc, hsum, hn]

/-- No date comes after 9999-12-31. -/
theorem ofOrdinal?_eq_none {n : Nat} (h : dayCount ≤ n) : ofOrdinal? n = none := by
  obtain ⟨year, rest, hy, hrest, hn, he⟩ := exists_year n
  have hyear : ¬year ≤ 9999 := by
    intro hle
    have h1 := daysBeforeYear_le (by omega) (show year + 1 ≤ 10000 by omega)
    rw [daysBeforeYear_succ hy] at h1
    have h2 : daysBeforeYear 10000 = dayCount := rfl
    omega
  rw [he, ofParts?, dif_neg fun hreal => hyear hreal.2.1]

/-- New Year's day of the year 2000. -/
def newYear2000 : Date := ⟨2000, 1, 1, by decide⟩

end Date
end MachineCatalog
