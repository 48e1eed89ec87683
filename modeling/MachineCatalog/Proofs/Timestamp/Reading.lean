/-
# Reading what is written in digits

The reader of timestamps finds its parts by position.  Here each part is given as
the digits that write it, and the reader finds them again: the date
(`date?_dateOctets`), the time with its fraction (`clock?_clockOctets`), the offset
(`offset?_offsetOctets`), a time with an offset behind it (`time?_signed`) or without one
(`time?_unsigned`), and all of them together (`instant?_dateOctets`).
-/

import MachineCatalog.Proofs.Calendar.Ordinal
import MachineCatalog.Proofs.Text.Digits
import MachineCatalog.Timestamp.Parse
import Mathlib.Data.List.TakeWhile

namespace MachineCatalog
namespace Timestamp

open Text

/-- The octets of decimal digits. -/
def digitOctets (ds : List (Fin 10)) : List Nat := ds.map fun d => 48 + d.val

@[simp] theorem length_digitOctets (ds : List (Fin 10)) : (digitOctets ds).length = ds.length :=
  List.length_map _

theorem digitOctets_append (ds es : List (Fin 10)) :
    digitOctets (ds ++ es) = digitOctets ds ++ digitOctets es := List.map_append

theorem digit?_add (d : Fin 10) : digit? (48 + d.val) = some d.val := by
  rw [digit?, if_pos (by omega), Nat.add_sub_cancel_left]

theorem digits?_go (ds : List (Fin 10)) (n : Nat) (rest : List Nat) :
    digits?.go n ds.length (digitOctets ds ++ rest) =
      some ((ds.map Fin.val).foldl (fun n d => n * 10 + d) n, rest) := by
  induction ds generalizing n with
  | nil => rfl
  | cons d ds ih =>
    rw [digitOctets, List.map_cons, List.length_cons, List.cons_append, digits?.go, digit?_add]
    exact ih _

/-- Reading as many digits as there are gives their value. -/
theorem digits?_digitOctets (ds : List (Fin 10)) (rest : List Nat) :
    digits? ds.length (digitOctets ds ++ rest) = some (ofDigitValues 10 (ds.map Fin.val), rest) :=
  digits?_go ds 0 rest

/-- **A number read in as many places as it is written in.** -/
theorem digits?_places {w n : Nat} (h : n < 10 ^ w) (rest : List Nat) :
    digits? w (digitOctets (places w n) ++ rest) = some (n, rest) := by
  have hd := digits?_digitOctets (places w n) rest
  rwa [length_places, ofDigitValues_places h] at hd

/-- The octets of `YYYY-MM-DD`. -/
def dateOctets (year month day : Nat) : List Nat :=
  digitOctets (places 4 year) ++ 45 :: (digitOctets (places 2 month) ++
    45 :: digitOctets (places 2 day))

/-- The octets of `HH:MM:SS`. -/
def clockOctets (hour minute second : Nat) : List Nat :=
  digitOctets (places 2 hour) ++ 58 :: (digitOctets (places 2 minute) ++
    58 :: digitOctets (places 2 second))

@[simp] theorem length_dateOctets (year month day : Nat) :
    (dateOctets year month day).length = 10 := by
  simp [dateOctets]

/-- A digit is none of the marks that stand between digits. -/
theorem digitOctets_cons_ne {w n b : Nat} {rest tail : List Nat} (hw : 0 < w)
    (hb : b < 48 ∨ 57 < b) : digitOctets (places w n) ++ rest ≠ b :: tail := by
  intro h
  cases hp : places w n with
  | nil =>
    have hl := congrArg List.length hp
    rw [length_places] at hl
    exact hw.ne' hl
  | cons d ds =>
    rw [hp, digitOctets, List.map_cons, List.cons_append, List.cons.injEq] at h
    have hd := h.1
    omega

theorem dateWidth?_dateOctets (year month day : Nat) (rest : List Nat) :
    dateWidth? (dateOctets year month day ++ rest) = some 10 := by
  have hlen : (dateOctets year month day ++ rest).length ≠ 7 := by
    rw [List.length_append, length_dateOctets]
    omega
  have h4 : (dateOctets year month day ++ rest).getD 4 0 = 45 := rfl
  have h5 : (dateOctets year month day ++ rest).getD 5 0 ≠ 87 := by
    change 48 + (Fin.ofNat 10 (month / 10)).val ≠ 87
    omega
  simp only [dateWidth?, h4, if_neg hlen, if_neg h5, if_true]

theorem date?_dateOctets {year month day : Nat} (hy : year < 10 ^ 4) (hm : month < 10 ^ 2)
    (hd : day < 10 ^ 2) : date? (dateOctets year month day) = Date.ofParts? year month day := by
  have hday := digits?_places hd []
  rw [List.append_nil] at hday
  simp only [date?, dateOctets, digits?_places hy, Option.bind_eq_bind, Option.bind_some,
    List.head?_cons, decide_true, hyphen?, if_true]
  split
  · rename_i h
    exact absurd h (digitOctets_cons_ne (by decide) (by decide))
  · simp only [digits?_places hm, Option.bind_some, hday]

/-- The microseconds that the digits of a fraction write: six of them count. -/
def fractionMicros (ds : List (Fin 10)) : Nat :=
  ofDigitValues 10 ((ds.take 6).map Fin.val) * 10 ^ (6 - min 6 ds.length)

theorem digit?_eq_some_iff {b d : Nat} : digit? b = some d ↔ b = 48 + d ∧ d < 10 := by
  rw [digit?]
  split_ifs with h
  · rw [Option.some.injEq]
    omega
  · simp only [false_iff]
    omega

theorem dropWhile_digitOctets (ds : List (Fin 10)) :
    (digitOctets ds).dropWhile (fun b => (digit? b).isSome) = [] := by
  rw [List.dropWhile_eq_nil_iff]
  intro b hb
  obtain ⟨d, -, rfl⟩ := List.mem_map.1 hb
  rw [digit?_add]
  rfl

theorem fraction?_digitOctets (ds : List (Fin 10)) (next : Nat) :
    fraction? (digitOctets ds) next = some (fractionMicros ds, decide (next ≠ 0)) := by
  have hsplit : digitOctets ds = digitOctets (ds.take 6) ++ digitOctets (ds.drop 6) := by
    rw [← digitOctets_append, List.take_append_drop]
  have hread := digits?_digitOctets (ds.take 6) (digitOctets (ds.drop 6))
  rw [← hsplit, List.length_take] at hread
  simp only [fraction?, length_digitOctets, hread, Option.bind_eq_bind, Option.bind_some,
    dropWhile_digitOctets, List.headD_nil, fractionMicros]
  rfl

/-- The octets of a fraction with its point; without digits there is neither. -/
def fractionOctets : List (Fin 10) → List Nat
  | [] => []
  | d :: ds => 46 :: digitOctets (d :: ds)

/-- The clock goes on after a colon. -/
theorem afterPart?_colon (last : Bool) {rest : List Nat} (next : Nat) (h : rest ≠ []) :
    afterPart? true last (58 :: rest) next =
      some (if last then .fraction rest else .part rest) := by
  cases rest with
  | nil => exact absurd rfl h
  | cons b rest => cases last <;> rfl

/-- A point starts a fraction. -/
theorem afterPart?_point (separated last : Bool) {rest : List Nat} (next : Nat) (h : rest ≠ []) :
    afterPart? separated last (46 :: rest) next = some (.fraction rest) := by
  cases rest with
  | nil => exact absurd rfl h
  | cons b rest => cases separated <;> rfl

theorem digitOctets_places_ne_nil (w n : Nat) (rest : List Nat) :
    digitOctets (places (w + 1) n) ++ rest ≠ [] := by
  simp [digitOctets, places]

/-- **A time is read as its parts.** -/
theorem clock?_clockOctets {hour minute second : Nat} (hh : hour < 10 ^ 2) (hm : minute < 10 ^ 2)
    (hs : second < 10 ^ 2) (ds : List (Fin 10)) (next : Nat) :
    clock? (clockOctets hour minute second ++ fractionOctets ds) next =
      some ⟨⟨hour, minute, second, fractionMicros ds⟩, decide (next ≠ 0)⟩ := by
  simp only [clock?, clockOctets, List.append_assoc, List.cons_append, digits?_places hh,
    Option.bind_eq_bind, Option.bind_some, List.head?_cons, decide_true]
  rw [afterPart?_colon false next (digitOctets_places_ne_nil _ _ _)]
  simp only [Option.bind_some, Bool.false_eq_true, if_false, digits?_places hm]
  rw [afterPart?_colon false next (digitOctets_places_ne_nil _ _ _)]
  simp only [Option.bind_some, Bool.false_eq_true, if_false, digits?_places hs]
  cases ds with
  | nil => rfl
  | cons d ds =>
    rw [fractionOctets, afterPart?_point true true next (by simp [digitOctets])]
    simp only [Option.bind_some, fraction?_digitOctets]
    rfl

/-- The octets of an offset `hh:mm`. -/
def offsetOctets (hour minute : Nat) : List Nat :=
  digitOctets (places 2 hour) ++ 58 :: digitOctets (places 2 minute)

/-- **An offset of less than a day is read.** -/
theorem offset?_offsetOctets {hour minute : Nat} (hh : hour < 10 ^ 2) (hm : minute ≤ 59)
    (negative : Bool) :
    offset? negative (offsetOctets hour minute) =
      if hour ≤ 23 then
        some (withSign negative ((hour * 60 + minute) * 60000000))
      else none := by
  have hclock : clock? (offsetOctets hour minute) 0 = some ⟨⟨hour, minute, 0, 0⟩, false⟩ := by
    have hminute := digits?_places (show minute < 10 ^ 2 by omega) []
    rw [List.append_nil] at hminute
    have hcolon := afterPart?_colon false 0 (digitOctets_places_ne_nil 1 minute [])
    rw [List.append_nil] at hcolon
    simp only [clock?, offsetOctets, digits?_places hh, Option.bind_eq_bind, Option.bind_some,
      List.head?_cons, decide_true, hcolon, Bool.false_eq_true, if_false, hminute]
    rfl
  simp only [offset?, hclock, Option.bind_eq_bind, Option.bind_some, Bool.false_eq_true, if_false,
    TimeOfDay.micros, Moment.microsPerDay, withSign]
  by_cases hzero : hour = 0 ∧ minute = 0
  · obtain ⟨rfl, rfl⟩ := hzero
    cases negative <;> rfl
  · rw [if_neg (by omega)]
    by_cases hday : hour ≤ 23
    · rw [if_pos (by omega), if_pos hday]
      cases negative <;> simp <;> omega
    · rw [if_neg (by omega), if_neg hday]

/-- Whether an octet ends the time: a sign or a `Z`. -/
def endsClock (b : Nat) : Bool := b = 43 || b = 45 || b = 90

theorem takeWhile_of_endsClock {body : List Nat} (hbody : ∀ b ∈ body, endsClock b = false)
    (rest : List Nat) (hrest : ∀ b ∈ rest.head?, endsClock b = true) :
    (body ++ rest).takeWhile (fun b => b ≠ 43 && b ≠ 45 && b ≠ 90) = body := by
  have heq : (fun b : Nat => decide (b ≠ 43) && decide (b ≠ 45) && decide (b ≠ 90)) =
      fun b => !endsClock b := by
    funext b
    simp [endsClock, Bool.not_or]
  rw [heq, List.takeWhile_append_of_pos fun b hb => by rw [hbody b hb]; rfl]
  cases rest with
  | nil => simp
  | cons b rest =>
    have hb : endsClock b = true := hrest b (by simp)
    rw [List.takeWhile_cons_of_neg (by rw [hb]; decide), List.append_nil]

/-- **A time without an offset** must end with its last part. -/
theorem time?_unsigned {body : List Nat} (hbody : ∀ b ∈ body, endsClock b = false)
    {reading : ClockReading} (hc : clock? body 0 = some reading) (hj : reading.junk = false) :
    time? body = (realTime? reading.time).map fun time => (time, 0) := by
  have htake := takeWhile_of_endsClock hbody [] (by simp)
  rw [List.append_nil] at htake
  simp only [time?, htake, List.drop_length, hc, hj, Option.bind_eq_bind, Option.bind_some,
    Bool.false_eq_true, if_false]
  cases realTime? reading.time <;> rfl

/-- **A time before an offset**: the sign is the first octet that ends the time, and
what the time passes over does not matter. -/
theorem time?_signed {body rest : List Nat} {sign : Nat} {reading : ClockReading}
    (hbody : ∀ b ∈ body, endsClock b = false) (hsign : sign = 43 ∨ sign = 45)
    (hc : clock? body sign = some reading) :
    time? (body ++ sign :: rest) =
      (offset? (sign = 45) rest).bind fun offset =>
        (realTime? reading.time).map fun time => (time, offset) := by
  have hends : endsClock sign = true := by rcases hsign with rfl | rfl <;> rfl
  have htake := takeWhile_of_endsClock hbody (sign :: rest) (by simp [hends])
  simp only [time?, htake, List.drop_left]
  split
  · simp at *
  · rename_i h
    rw [List.cons.injEq] at h
    omega
  · rename_i h
    obtain ⟨rfl, rfl⟩ := List.cons.inj h
    simp only [hc, Option.bind_eq_bind, Option.bind_some]
    cases offset? (sign = 45) rest with
    | none => rfl
    | some offset => cases realTime? reading.time <;> rfl

/-- **A date, any one octet and a time are an instant.** -/
theorem instant?_dateOctets {year month day : Nat} (hy : year < 10 ^ 4) (hm : month < 10 ^ 2)
    (hd : day < 10 ^ 2) {sep : Nat} (hsep : sep < 0x80) (rest : List Nat) :
    instant? (dateOctets year month day ++ sep :: rest) =
      (Date.ofParts? year month day).bind fun date => (time? rest).map fun p =>
        date.dayNumber * Moment.microsPerDay + p.1.micros - p.2 := by
  have hlen : ¬(dateOctets year month day ++ sep :: rest).length < 7 := by
    rw [List.length_append, length_dateOctets]
    omega
  have hdrop : (dateOctets year month day ++ sep :: rest).drop 10 = sep :: rest :=
    List.drop_left' (length_dateOctets ..)
  have htake : (dateOctets year month day ++ sep :: rest).take 10 = dateOctets year month day :=
    List.take_left' (length_dateOctets ..)
  simp only [instant?, if_neg hlen, dateWidth?_dateOctets, Option.bind_eq_bind, Option.bind_some,
    htake, hdrop, date?_dateOctets hy hm hd, characterWidth, if_pos hsep, List.drop_succ_cons,
    List.drop_zero]
  cases Date.ofParts? year month day with
  | none => rfl
  | some date => cases time? rest <;> rfl

end Timestamp
end MachineCatalog
