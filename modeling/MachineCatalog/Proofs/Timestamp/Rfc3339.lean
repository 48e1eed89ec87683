/-
# Timestamps as RFC 3339 writes them

A timestamp of RFC 3339 is a calendar date, a `T`, `t` or blank, a time to the second, possibly a
fraction of any length, and possibly `Z`, `z` or an offset in hours and minutes.  Such a text is
accepted when its date is a real one and its time and its offset are shorter than a day, and it is
read as exactly the instant that it writes, rounded down to the millisecond (`Rfc3339.parse_text`).
-/

import MachineCatalog.Proofs.Timestamp.Bounds
import MachineCatalog.Proofs.Timestamp.Preparing

namespace MachineCatalog
namespace Timestamp

open Text

/-- The character between date and time. -/
inductive DateMark where
  | upper
  | lower
  | blank
deriving DecidableEq

/-- The character as it is written. -/
def DateMark.codePoint : DateMark → CodePoint
  | .upper => CodePoint.ofChar 'T'
  | .lower => CodePoint.ofChar 't'
  | .blank => CodePoint.ofChar ' '

/-- The offset from UTC as it is written. -/
inductive ZoneMark where
  | absent
  | zulu (small : Bool)
  | signed (negative : Bool) (hour : Fin 100) (minute : Fin 60)
deriving DecidableEq

namespace ZoneMark

/-- The text of the offset. -/
def text : ZoneMark → Text
  | .absent => []
  | .zulu small => [CodePoint.ofChar (if small then 'z' else 'Z')]
  | .signed negative hour minute =>
    CodePoint.ofChar (if negative then '-' else '+') :: offsetText hour minute

/-- The text of the offset after a `Z` has become an offset of zero. -/
def preparedText : ZoneMark → Text
  | .absent => []
  | .zulu _ => CodePoint.ofChar '+' :: offsetText 0 0
  | .signed negative hour minute =>
    CodePoint.ofChar (if negative then '-' else '+') :: offsetText hour minute

/-- The offset in minutes. -/
def minutes : ZoneMark → Int
  | .absent => 0
  | .zulu _ => 0
  | .signed negative hour minute => withSign negative (hour * 60 + minute : Nat)

/-- The offset is shorter than a day. -/
def IsReal : ZoneMark → Prop
  | .absent => True
  | .zulu _ => True
  | .signed _ hour _ => hour.val ≤ 23

instance (z : ZoneMark) : Decidable z.IsReal := by cases z <;> unfold IsReal <;> infer_instance

end ZoneMark

/-- A timestamp of RFC 3339, its numbers in as many digits as they are written with.  A fraction
without digits is none. -/
structure Rfc3339 where
  year : Fin 10000
  month : Fin 100
  day : Fin 100
  mark : DateMark
  hour : Fin 100
  minute : Fin 100
  second : Fin 100
  fraction : List (Fin 10)
  zone : ZoneMark

namespace Rfc3339

/-- The text of a timestamp. -/
def text (r : Rfc3339) : Text :=
  dateText r.year r.month r.day ++ r.mark.codePoint ::
    (clockText r.hour r.minute r.second ++ (fractionText r.fraction ++ r.zone.text))

/-- The date is a day of the calendar. -/
def HasDate (r : Rfc3339) : Prop :=
  1 ≤ r.year.val ∧ 1 ≤ r.month.val ∧ r.month.val ≤ 12 ∧ 1 ≤ r.day.val ∧
    r.day.val ≤ Calendar.monthLength r.year r.month

instance (r : Rfc3339) : Decidable r.HasDate := by unfold HasDate; infer_instance

/-- The time is a time of day. -/
def HasTime (r : Rfc3339) : Prop := r.hour.val ≤ 23 ∧ r.minute.val ≤ 59 ∧ r.second.val ≤ 59

instance (r : Rfc3339) : Decidable r.HasTime := by unfold HasTime; infer_instance

/-- The numbers name a day of the calendar, a time of day and an offset. -/
def IsReal (r : Rfc3339) : Prop := r.HasDate ∧ r.HasTime ∧ r.zone.IsReal

instance (r : Rfc3339) : Decidable r.IsReal := by unfold IsReal; infer_instance

/-- The days from 1970-01-01. -/
def dayNumber (r : Rfc3339) : Int :=
  (Calendar.daysBeforeYear r.year + Calendar.daysBeforeMonth r.year r.month + (r.day - 1) : Nat) -
    Date.epochOrdinal

/-- The milliseconds from 1970-01-01T00:00:00 UTC. -/
def millis (r : Rfc3339) : Int :=
  r.dayNumber * 86400000 + r.hour * 3600000 + r.minute * 60000 + r.second * 1000 +
    firstValue 3 r.fraction - r.zone.minutes * 60000

end Rfc3339

/-! ### Reading -/

/-- No octet of a time is a sign or a `Z`. -/
theorem endsClock_of_mem {hour minute second : Nat} {ds : List (Fin 10)} {b : Nat}
    (h : b ∈ clockOctets hour minute second ++ fractionOctets ds) : endsClock b = false := by
  have hdigit {es : List (Fin 10)} (he : b ∈ digitOctets es) : endsClock b = false := by
    obtain ⟨d, -, rfl⟩ := List.mem_map.1 he
    simp only [endsClock, Bool.or_eq_false_iff, decide_eq_false_iff_not]
    omega
  simp only [clockOctets, List.mem_append, List.mem_cons] at h
  rcases h with (h | rfl | h | rfl | h) | h
  · exact hdigit h
  · rfl
  · exact hdigit h
  · rfl
  · exact hdigit h
  · cases ds with
    | nil => exact absurd h List.not_mem_nil
    | cons d ds =>
      rcases List.mem_cons.1 h with rfl | h
      · rfl
      · exact hdigit h

theorem realTime?_fractionMicros (hour minute second : Nat) (ds : List (Fin 10)) :
    realTime? ⟨hour, minute, second, fractionMicros ds⟩ =
      if hour ≤ 23 ∧ minute ≤ 59 ∧ second ≤ 59 then
        some ⟨hour, minute, second, fractionMicros ds⟩ else none := by
  have hmicros := fractionMicros_lt ds
  rw [realTime?]
  refine if_congr ?_ rfl rfl
  simp only [TimeOfDay.IsReal]
  omega

theorem withSign_mul (negative : Bool) (n k : Nat) :
    withSign negative (n * k) = withSign negative n * k := by
  cases negative with
  | false => exact Int.natCast_mul ..
  | true => rw [withSign, withSign, if_pos rfl, if_pos rfl, Int.natCast_mul, Int.neg_mul]

/-- A time is read with the offset in hours and minutes behind it. -/
theorem time?_signed_offsetText {hour minute second : Nat} (hh : hour < 10 ^ 2)
    (hm : minute < 10 ^ 2) (hs : second < 10 ^ 2) (ds : List (Fin 10)) (negative : Bool)
    (oh : Fin 100) (om : Fin 60) :
    time? (clockOctets hour minute second ++ fractionOctets ds ++
        (ZoneMark.signed negative oh om).preparedText.map Fin.val) =
      if (hour ≤ 23 ∧ minute ≤ 59 ∧ second ≤ 59) ∧ oh.val ≤ 23 then
        some (⟨hour, minute, second, fractionMicros ds⟩,
          withSign negative (oh * 60 + om) * 60000000)
      else none := by
  obtain ⟨sign, hsign, hnegative, htext⟩ : ∃ sign, (sign = 43 ∨ sign = 45) ∧
      decide (sign = 45) = negative ∧
      (ZoneMark.signed negative oh om).preparedText.map Fin.val = sign :: offsetOctets oh om := by
    rw [ZoneMark.preparedText, List.map_cons, map_val_offsetText]
    cases negative with
    | false => exact ⟨43, .inl rfl, rfl, rfl⟩
    | true => exact ⟨45, .inr rfl, rfl, rfl⟩
  have hoffset := offset?_offsetOctets (show oh.val < 10 ^ 2 by omega)
    (show om.val ≤ 59 by omega) negative
  rw [htext, time?_signed (fun _ => endsClock_of_mem) hsign (clock?_clockOctets hh hm hs ds _),
    hnegative, hoffset, realTime?_fractionMicros, withSign_mul]
  by_cases hday : oh.val ≤ 23
  · rw [if_pos hday, Option.bind_some]
    simp only [hday, and_true]
    split_ifs <;> rfl
  · rw [if_neg hday, if_neg fun h => hday (And.right h), Option.bind_none]

/-- **A time and its offset are read** when both are shorter than a day. -/
theorem time?_clockOctets {hour minute second : Nat} (hh : hour < 10 ^ 2) (hm : minute < 10 ^ 2)
    (hs : second < 10 ^ 2) (ds : List (Fin 10)) (zone : ZoneMark) :
    time? (clockOctets hour minute second ++ fractionOctets ds ++ zone.preparedText.map Fin.val) =
      if (hour ≤ 23 ∧ minute ≤ 59 ∧ second ≤ 59) ∧ zone.IsReal then
        some (⟨hour, minute, second, fractionMicros ds⟩, zone.minutes * 60000000)
      else none := by
  cases zone with
  | absent =>
    rw [ZoneMark.preparedText, List.map_nil, List.append_nil,
      time?_unsigned (fun _ => endsClock_of_mem) (clock?_clockOctets hh hm hs ds 0) rfl,
      realTime?_fractionMicros]
    simp only [ZoneMark.IsReal, and_true]
    split_ifs <;> rfl
  | zulu small =>
    have htext :
        (ZoneMark.zulu small).preparedText = (ZoneMark.signed false 0 0).preparedText := rfl
    rw [htext, time?_signed_offsetText hh hm hs]
    exact if_congr (and_congr_right' (by simp [ZoneMark.IsReal])) rfl rfl
  | signed negative oh om => exact time?_signed_offsetText hh hm hs ds negative oh om

namespace ZoneMark

theorem isPart_preparedText (zone : ZoneMark) : IsPart zone.preparedText := by
  cases zone with
  | absent => exact isPart_nil
  | zulu small => exact .cons (by decide) (isPart_offsetText 0 0)
  | signed negative oh om => exact .cons (by cases negative <;> decide) (isPart_offsetText _ _)

/-- An offset goes on with neither a digit nor a point. -/
theorem head?_preparedText (zone : ZoneMark) : ∀ c ∈ zone.preparedText.head?,
    isAsciiDigit c.toChar = false ∧ c ≠ CodePoint.ofChar '.' := by
  intro c hc
  cases zone with
  | absent => exact absurd hc nofun
  | zulu small =>
    obtain rfl := Option.some.inj hc
    decide
  | signed negative oh om =>
    obtain rfl := Option.some.inj hc
    cases negative <;> decide

/-- Preparing writes an offset of zero for a `Z`. -/
theorem zuluToOffset_append (zone : ZoneMark) {t part : Text} (hp : IsPart part) (hne : part ≠ []) :
    zuluToOffset (t ++ (part ++ zone.text)) = t ++ (part ++ zone.preparedText) := by
  have hself {part : Text} (hp : IsPart part) (hne : part ≠ []) :
      zuluToOffset (t ++ part) = t ++ part := by
    refine zuluToOffset_eq_self fun c hc => ?_
    have hb := hp c (List.mem_of_getLast? (by rwa [List.getLast?_append, Option.mem_def,
      Option.or_of_isSome (by simpa using hne)] at hc))
    constructor
    · rintro rfl
      exact absurd hb (by decide)
    · rintro rfl
      exact absurd hb (by decide)
  cases zone with
  | absent => exact hself (hp.append isPart_nil) (by simpa [text] using hne)
  | zulu small =>
    have hz : CodePoint.ofChar (if small then 'z' else 'Z') = CodePoint.ofChar 'Z' ∨
        CodePoint.ofChar (if small then 'z' else 'Z') = CodePoint.ofChar 'z' := by
      cases small <;> decide
    rw [text, preparedText, ← List.append_assoc, ← List.append_assoc, zuluToOffset_zulu _ hz]
    rfl
  | signed negative oh om =>
    exact hself (hp.append (isPart_preparedText (.signed negative oh om))) (by simp [text])

end ZoneMark

namespace Rfc3339

/-- **Preparing changes nothing but the fraction and the offset**, and keeps what they write. -/
theorem exists_prepared (r : Rfc3339) : ∃ es, fractionMicros es = fractionMicros r.fraction ∧
    sixDigitFraction (zuluToOffset r.text) = dateText r.year r.month r.day ++ r.mark.codePoint ::
      (clockText r.hour r.minute r.second ++ (fractionText es ++ r.zone.preparedText)) := by
  obtain ⟨es, hes, hsix⟩ := exists_sixDigitFraction_clockText r.hour r.minute r.second
    r.mark.codePoint r.fraction r.zone.isPart_preparedText r.zone.head?_preparedText
  have hzulu := r.zone.zuluToOffset_append
    (t := dateText r.year r.month r.day ++ [r.mark.codePoint])
    ((isPart_clockText r.hour r.minute r.second).append (isPart_fractionText r.fraction))
    (by simp [clockText, places])
  simp only [List.append_assoc, List.singleton_append] at hzulu
  refine ⟨es, hes, ?_⟩
  rw [text, hzulu, (isPart_dateText r.year r.month r.day).sixDigitFraction_append, hsix]

theorem ascii_prepared (r : Rfc3339) (es : List (Fin 10)) :
    ∀ c ∈ dateText r.year r.month r.day ++ r.mark.codePoint ::
      (clockText r.hour r.minute r.second ++ (fractionText es ++ r.zone.preparedText)),
      c.val < 0x80 := by
  have hpart {t : Text} (h : IsPart t) : ∀ c ∈ t, c.val < 0x80 :=
    fun c hc => (h c hc).2.trans_lt (by decide)
  simp only [List.forall_mem_append, List.forall_mem_cons]
  exact ⟨hpart (isPart_dateText _ _ _), by cases r.mark <;> decide, hpart (isPart_clockText _ _ _),
    hpart (isPart_fractionText _), hpart r.zone.isPart_preparedText⟩

theorem exists_ofParts? {r : Rfc3339} (h : r.HasDate) :
    ∃ date, Date.ofParts? r.year r.month r.day = some date ∧ date.dayNumber = r.dayNumber :=
  ⟨⟨r.year, r.month, r.day, h.1, Nat.le_of_lt_succ r.year.isLt, h.2⟩, dif_pos _, rfl⟩

theorem ofParts?_eq_none {r : Rfc3339} (h : ¬r.HasDate) :
    Date.ofParts? r.year r.month r.day = none :=
  dif_neg fun hreal => h ⟨hreal.1, hreal.2.2⟩

/-- The time of day that is read. -/
def timeOfDay (r : Rfc3339) : TimeOfDay := ⟨r.hour, r.minute, r.second, fractionMicros r.fraction⟩

theorem time?_eq (r : Rfc3339) {es : List (Fin 10)}
    (hes : fractionMicros es = fractionMicros r.fraction) :
    time? (clockOctets r.hour r.minute r.second ++ fractionOctets es ++
        r.zone.preparedText.map Fin.val) =
      if r.HasTime ∧ r.zone.IsReal then some (r.timeOfDay, r.zone.minutes * 60000000)
        else none := by
  rw [time?_clockOctets r.hour.isLt r.minute.isLt r.second.isLt, hes]
  rfl

/-- The microseconds of a timestamp, rounded down to milliseconds. -/
theorem millis_eq (r : Rfc3339) :
    (r.dayNumber * Moment.microsPerDay + r.timeOfDay.micros - r.zone.minutes * 60000000) / 1000 =
      r.millis := by
  have hdiv := fractionMicros_div r.fraction
  simp only [millis, timeOfDay, TimeOfDay.micros, Moment.microsPerDay]
  omega

/-- **What is read of a timestamp is the instant that it writes**, if its numbers are real. -/
theorem millis?_text (r : Rfc3339) : millis? r.text = if r.IsReal then some r.millis else none := by
  obtain ⟨es, hes, hprepared⟩ := r.exists_prepared
  have hmark : r.mark.codePoint.val < 0x80 := by cases r.mark <;> decide
  rw [millis?_of_ascii hprepared (r.ascii_prepared es), List.map_append, List.map_cons,
    List.map_append, List.map_append, map_val_dateText, map_val_clockText, map_val_fractionText,
    ← List.append_assoc (clockOctets _ _ _),
    instant?_dateOctets r.year.isLt r.month.isLt r.day.isLt hmark,
    r.time?_eq hes]
  by_cases hdate : r.HasDate
  · obtain ⟨date, hparts, hday⟩ := exists_ofParts? hdate
    rw [hparts, Option.bind_some, hday]
    by_cases htime : r.HasTime ∧ r.zone.IsReal
    · have hreal : r.IsReal := ⟨hdate, htime⟩
      rw [if_pos htime, if_pos hreal, Option.map_some, Option.map_some, r.millis_eq]
    · rw [if_neg htime, if_neg fun h : r.IsReal => htime h.2]
      rfl
  · rw [ofParts?_eq_none hdate, if_neg fun h : r.IsReal => hdate h.1]
    rfl

/-- **Timestamps of RFC 3339 are read as exactly the instant that they write**, and are malformed
when their numbers are not real. -/
theorem parse_text (r : Rfc3339) : parse (.text r.text) =
    if r.IsReal then .ok r.millis
    else .error (.rejected (.malformedTimestamp (.text r.text))) := by
  simp only [parse_eq, r.millis?_text]
  split_ifs
  · rfl
  · exact Rejection.IsReportable.reject_eq rfl

end Rfc3339

end Timestamp
end MachineCatalog
