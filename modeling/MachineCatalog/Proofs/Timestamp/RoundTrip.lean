/-
# What is written is read back

A written timestamp has the layout `YYYY-MM-DDTHH:MM:SS.mmm+00:00`: it is one of RFC 3339
(`stamp_eq`), so reading gives the instant that it writes, and that is the one it was written for
(`millis?_stamp`).  Every instant in the years 1 to 9999 is read back (`millis?_of_renderMillis?`),
no two instants have the same text (`renderMillis?_injective`), and an instant outside those years
is rejected (`parse_render_int`).
-/

import MachineCatalog.Proofs.Timestamp.Range
import MachineCatalog.Proofs.Timestamp.Rfc3339

namespace MachineCatalog
namespace Timestamp

open Text

/-- The timestamp of a date and a time of day, to the millisecond, in UTC. -/
def ofReading (date : Date) {time : TimeOfDay} (ht : time.IsReal) : Rfc3339 where
  year := ⟨date.year, date.year_lt⟩
  month := ⟨date.month, date.month_lt⟩
  day := ⟨date.day, date.day_lt⟩
  mark := .upper
  hour := ⟨time.hour, ht.1.trans_lt (by decide)⟩
  minute := ⟨time.minute, ht.2.1.trans_lt (by decide)⟩
  second := ⟨time.second, ht.2.2.1.trans_lt (by decide)⟩
  fraction := places 3 (time.micro / 1000)
  zone := .signed false 0 0

theorem isReal_ofReading (date : Date) {time : TimeOfDay} (ht : time.IsReal) :
    (ofReading date ht).IsReal :=
  ⟨⟨date.real.1, date.real.2.2⟩, ⟨ht.1, ht.2.1, ht.2.2.1⟩, Nat.zero_le 23⟩

/-- A written timestamp is one of RFC 3339. -/
theorem stamp_eq (date : Date) {time : TimeOfDay} (ht : time.IsReal) :
    stamp date time = (ofReading date ht).text := by
  obtain ⟨hh, hm, hs, hu⟩ := id ht
  rw [stamp, Date.text, TimeOfDay.text, padded_eq_map_digit (by decide) date.year_lt,
    padded_eq_map_digit (by decide) date.month_lt, padded_eq_map_digit (by decide) date.day_lt,
    padded_eq_map_digit (by decide) (show time.hour < 10 ^ 2 by omega),
    padded_eq_map_digit (by decide) (show time.minute < 10 ^ 2 by omega),
    padded_eq_map_digit (by decide) (show time.second < 10 ^ 2 by omega),
    padded_eq_map_digit (by decide) (show time.micro / 1000 < 10 ^ 3 by omega)]
  simp only [List.append_assoc]
  rfl

/-- **What is written is read back**, rounded down to the millisecond that was
written. -/
theorem millis?_stamp (date : Date) {time : TimeOfDay} (ht : time.IsReal)
    (hu : time.micro % 1000 = 0) : millis? (stamp date time) =
      some ((date.dayNumber * Moment.microsPerDay + time.micros) / 1000) := by
  have hmicro := ht.2.2.2
  have hfraction : firstValue 3 (places 3 (time.micro / 1000)) = time.micro / 1000 := by
    rw [firstValue, firstPlaces, List.take_left' (length_places ..),
      ofDigitValues_places (by omega)]
  have hday : (ofReading date ht).dayNumber = date.dayNumber := rfl
  rw [stamp_eq date ht, Rfc3339.millis?_text, if_pos (isReal_ofReading date ht), Rfc3339.millis,
    hday]
  simp only [ofReading, hfraction, ZoneMark.minutes, withSign, TimeOfDay.micros,
    Moment.microsPerDay]
  simp
  omega

/-- **Every instant in the years 1 to 9999 is written, and is read back.** -/
theorem millis?_of_renderMillis? {millis : Int} {t : Text} (h : renderMillis? millis = some t) :
    millis? t = some millis := by
  by_cases hr : InRange millis
  · obtain ⟨date, time, he, ht, hu, hsum⟩ := exists_renderMillis? hr
    obtain rfl := Option.some.inj (h.symm.trans he)
    rw [millis?_stamp date ht hu, hsum, Int.mul_ediv_cancel _ (by decide)]
  · rw [renderMillis?_eq_none hr] at h
    exact absurd h (by simp)

/-- No two instants have one text. -/
theorem renderMillis?_injective {a b : Int} {t : Text} (ha : renderMillis? a = some t)
    (hb : renderMillis? b = some t) : a = b :=
  Option.some.inj ((millis?_of_renderMillis? ha).symm.trans (millis?_of_renderMillis? hb))

/-- A text in the layout `YYYY-MM-DDTHH:MM:SS.mmm+00:00`, with a real date and a time of day. -/
def IsStamp (t : Text) : Prop :=
  ∃ r : Rfc3339, r.IsReal ∧ r.mark = .upper ∧ r.fraction.length = 3 ∧
    r.zone = .signed false 0 0 ∧ r.text = t

/-- **Timestamps are written exactly for the years 1 to 9999 and are read back.**  Any other
instant is rejected as out of range, if its milliseconds are short enough to be shown. -/
theorem parse_render_int {millis : Int} (h : millis.natAbs < 10 ^ decimalDigitLimit) :
    ((∃ t, render (.int millis) = .ok t) ↔ firstMillis ≤ millis ∧ millis ≤ lastMillis) ∧
      (¬(firstMillis ≤ millis ∧ millis ≤ lastMillis) →
        render (.int millis) = .error (.rejected (.timestampRange (.int millis)))) ∧
      ∀ t, render (.int millis) = .ok t → IsStamp t ∧ parse (.text t) = .ok millis := by
  have hshort : Value.isLongInteger millis = false := Numeral.isLongInteger_eq_false_iff.2 h
  have hreportable : (Rejection.timestampRange (.int millis)).IsReportable := by
    rw [Rejection.IsReportable, Rejection.value?, Option.any_some, Value.holdsLongInteger, hshort]
  by_cases hr : InRange millis
  · obtain ⟨date, time, he, ht, hu, hsum⟩ := exists_renderMillis? hr
    have hok : render (.int millis) = .ok (stamp date time) := by simp only [render, he]
    refine ⟨⟨fun _ => hr, fun _ => ⟨_, hok⟩⟩, fun hn => absurd hr hn, ?_⟩
    rintro t h
    obtain rfl := Except.ok.inj (hok.symm.trans h)
    refine ⟨⟨ofReading date ht, isReal_ofReading date ht, rfl, length_places .., rfl,
      (stamp_eq date ht).symm⟩, ?_⟩
    exact parse_of_millis? (millis?_of_renderMillis? he)
  · have herror : render (.int millis) = .error (.rejected (.timestampRange (.int millis))) := by
      simp only [render, renderMillis?_eq_none hr, hreportable.reject_eq]
    refine ⟨⟨?_, fun hn => absurd hn hr⟩, fun _ => herror, ?_⟩
    · rintro ⟨t, ht⟩
      cases herror.symm.trans ht
    · intro t ht
      cases herror.symm.trans ht

/-- The first millisecond that can be written is read back. -/
theorem parse_render_firstMillis : firstMillis.natAbs < 10 ^ decimalDigitLimit ∧
    ∃ t, render (.int firstMillis) = .ok t ∧ IsStamp t ∧ parse (.text t) = .ok firstMillis := by
  have hshort : firstMillis.natAbs < 10 ^ decimalDigitLimit :=
    lt_of_lt_of_le (show firstMillis.natAbs < 10 ^ 14 by decide)
      (Nat.pow_le_pow_right (by decide) (by decide))
  have h := parse_render_int hshort
  obtain ⟨t, ht⟩ := h.1.2 (by decide)
  exact ⟨hshort, t, ht, h.2.2 t ht⟩

end Timestamp
end MachineCatalog
