/-
# What is accepted as a timestamp

Before a text is read, its final `Z`, its first fraction and a half of a pair between date and time
are replaced.  Here the form of what is read is carried back over these steps to the text itself.
Characters that are passed over stay so, since no step makes a sign of them or removes the 0 or the
character that is no digit at their start (`Alike`).

A text that is accepted therefore is a timestamp of ISO 8601, unless it has one of the deviations
that the reader lets pass (`isIsoTimestamp_or_deviates_of_parse`).
-/

import MachineCatalog.Proofs.Timestamp.Bounds
import MachineCatalog.Proofs.Timestamp.Characters

namespace MachineCatalog
namespace Timestamp

open Text

/-! ### Replacing what is passed over -/

/-- The second text may be passed over wherever the first may: it starts with the same character,
and nothing but digits is new in it. -/
structure Alike (s t : Text) : Prop where
  head : t.head? = s.head?
  single : s.length = 1 → t = s
  mem : ∀ c ∈ t, c ∈ s ∨ isAsciiDigit c.toChar = true

theorem Alike.refl (t : Text) : Alike t t := ⟨rfl, fun _ => rfl, fun _ => .inl⟩

theorem Alike.nil {t : Text} (h : Alike [] t) : t = [] := List.head?_eq_none_iff.1 h.head

theorem Alike.null {s t : Text} (h : Alike s t) (hs : StartsWithNull s) : StartsWithNull t := by
  rw [StartsWithNull, h.head]
  exact hs

/-- ASCII digits are no signs and no halves of pairs. -/
theorem val_of_isAsciiDigit {c : CodePoint} (h : isAsciiDigit c.toChar = true) :
    48 ≤ c.val ∧ c.val ≤ 57 := by
  rw [isAsciiDigit_iff] at h
  rwa [CodePoint.toNat_toChar (CodePoint.isHalf_eq_false_of_toChar (by omega))] at h

theorem Alike.unsigned {s t : Text} (h : Alike s t) (hs : ∀ c ∈ s, endsClock c.val = false) :
    ∀ c ∈ t, endsClock c.val = false := by
  intro c hc
  rcases h.mem c hc with hmem | hdigit
  · exact hs c hmem
  · have hval := val_of_isAsciiDigit hdigit
    simp only [endsClock, Bool.or_eq_false_iff, decide_eq_false_iff_not]
    omega

theorem Alike.whole {s t : Text} (h : Alike s t) (hs : IsWhole s) : IsWhole t := by
  intro c hc
  rcases h.mem c hc with hmem | hdigit
  · exact hs c hmem
  · have hval := val_of_isAsciiDigit hdigit
    exact CodePoint.isHalf_of_ascii (by omega)

/-- Texts that are alike stay so behind the same character. -/
theorem Alike.cons (c : CodePoint) {s t : Text} (h : Alike s t) : Alike (c :: s) (c :: t) where
  head := rfl
  single hlen := by
    obtain rfl : s = [] := List.length_eq_zero_iff.1 (Nat.succ.inj hlen)
    rw [h.nil]
  mem d hd := by
    rcases List.mem_cons.1 hd with rfl | hmem
    · exact .inl List.mem_cons_self
    · exact (h.mem d hmem).imp_left (List.mem_cons_of_mem c)

theorem Passes.alike {f : Option Fraction} {filled : Prop} {s t : Text} (h : Passes f filled s)
    (ha : Alike s t) : Passes f filled t := by
  rcases h with rfl | ⟨hf, c, rfl, hc⟩ | ⟨g, hf, hsix, hdigit, hwhole⟩
  · exact .inl ha.nil
  · exact .inr (.inl ⟨hf, c, ha.single rfl, hc⟩)
  · exact .inr (.inr ⟨g, hf, hsix, by rwa [ha.head], ha.whole hwhole⟩)

theorem Passes.mono {f : Option Fraction} {p q : Prop} {t : Text} (h : Passes f p t) (hpq : p → q) :
    Passes f q t :=
  h.imp_right (.imp_right fun ⟨g, hf, hsix, hrest⟩ => ⟨g, hf, hsix.imp_right hpq, hrest⟩)

/-! ### Halves of pairs -/

theorem endsClock_of_isHalf {c : CodePoint} (h : c.isHalf = true) : endsClock c.val = false := by
  rw [CodePoint.isHalf, Bool.and_eq_true, decide_eq_true_iff] at h
  simp only [endsClock, Bool.or_eq_false_iff, decide_eq_false_iff_not]
  omega

/-- A `T` among the first three characters after the separator is passed over after an hour. -/
theorem LooseForm.IsPrepared.eq_of_getElem? {f : LooseForm} (hf : f.IsPrepared) {k : Nat}
    (hk : k ≤ 2)
    (hT : (f.clock.text ++ (f.passed ++ f.zone.text))[k]? = some (CodePoint.ofChar 'T')) :
    f.clock.fraction = none ∧ f.passed = [CodePoint.ofChar 'T'] ∧ k = f.clock.text.length := by
  have hle : f.clock.text.length ≤ k := by
    by_contra hlt
    rw [List.getElem?_append_left (Nat.lt_of_not_le hlt)] at hT
    exact absurd (f.clock.mem_text (List.mem_of_getElem? hT)).2.1 (by decide)
  have hlen : f.clock.text.length =
      2 + (laterText f.clock.colons f.clock.later).length +
        (f.clock.fraction.elim [] Fraction.text).length := by
    rw [ClockForm.text, List.length_append, List.length_append, length_numberText, Nat.add_assoc]
  obtain rfl : k = f.clock.text.length := by omega
  rw [List.getElem?_append_right le_rfl, Nat.sub_self, ← List.head?_eq_getElem?] at hT
  rcases hf.passes with hnil | ⟨hnone, c, hpassed, -⟩ | ⟨g, hg, -⟩
  · rw [hnil, List.nil_append] at hT
    exact absurd (hf.ends _ hT) (by decide)
  · rw [hpassed] at hT
    exact ⟨hnone, by rw [hpassed, Option.some.inj hT], rfl⟩
  · have hpos := List.length_pos_iff.2 g.digits_ne_nil
    rw [hg, Option.elim_some, Fraction.text, List.length_append, List.length_map] at hlen
    omega

/-- A half of a pair may stand where a `T` is read in its place. -/
theorem LooseForm.IsPrepared.exists_set {f : LooseForm} (hf : f.IsPrepared) {i : Nat} (hi : i ≤ 10)
    (hT : f.text[i]? = some (CodePoint.ofChar 'T')) {c : CodePoint} (hc : c.isHalf = true) :
    ∃ g : LooseForm, g.IsPrepared ∧ g.text = f.text.set i c := by
  have hle : f.date.text.length ≤ i := by
    by_contra hlt
    rw [LooseForm.text, List.getElem?_append_left (Nat.lt_of_not_le hlt)] at hT
    exact absurd (f.date.mem_text (List.mem_of_getElem? hT)) (by decide)
  have hseven := f.date.seven_le_length
  rw [LooseForm.text, List.getElem?_append_right hle] at hT
  rw [LooseForm.text, List.set_append_right _ _ hle]
  cases hk : i - f.date.text.length with
  | zero =>
    exact ⟨{ f with separator := c }, ⟨⟨hf.passes, hf.unsigned, hf.zone_fits, hf.null_of_absent⟩,
      hf.ends⟩, rfl⟩
  | succ k =>
    rw [hk, List.getElem?_cons_succ] at hT
    obtain ⟨hnone, hpassed, rfl⟩ := hf.eq_of_getElem? (by omega) hT
    refine ⟨{ f with passed := [c] }, ⟨⟨.inr (.inl ⟨hnone, c, rfl, .inr hc⟩), ?_, hf.zone_fits,
      fun habsent => ?_⟩, hf.ends⟩, ?_⟩
    · exact fun d hd => List.mem_singleton.1 hd ▸ endsClock_of_isHalf hc
    · exact absurd (hf.null_of_absent habsent _ (by rw [hpassed]; rfl)) (by decide)
    · rw [List.set_cons_succ, List.set_append_right _ _ le_rfl, Nat.sub_self, hpassed]
      rfl

/-- Replacing halves of pairs changes nothing, or one half into a `T`. -/
theorem replaceHalf_cases (t : Text) :
    replaceHalf t = t ∨ ∃ (i : Nat) (c : CodePoint), i ≤ 10 ∧ c.isHalf = true ∧
      (replaceHalf t)[i]? = some (CodePoint.ofChar 'T') ∧ t = (replaceHalf t).set i c := by
  rw [replaceHalf]
  split
  · rename_i i hfind
    have hany : (t[i]?.any CodePoint.isHalf) = true :=
      List.find?_some (p := fun i => t[i]?.any CodePoint.isHalf) hfind
    obtain ⟨c, hi, hc⟩ := (Option.any_eq_true _ _).1 hany
    obtain ⟨hlt, hget⟩ := List.getElem?_eq_some_iff.1 hi
    have hplace : ∀ i ∈ separatorPlaces, i ≤ 10 := by decide
    refine .inr ⟨i, c, hplace i (List.mem_of_find?_eq_some hfind), hc,
      List.getElem?_set_self hlt, ?_⟩
    rw [List.set_set, ← hget, List.set_getElem_self]
  · exact .inl rfl

/-- **The form of a text whose halves of pairs are replaced is that of the text.** -/
theorem exists_form_of_replaceHalf {t : Text}
    (h : (∃ d : DateForm, d.text = replaceHalf t) ∨
      ∃ f : LooseForm, f.IsPrepared ∧ f.text = replaceHalf t) :
    (∃ d : DateForm, d.text = t) ∨ ∃ f : LooseForm, f.IsPrepared ∧ f.text = t := by
  rcases replaceHalf_cases t with heq | ⟨i, c, hi, hc, hT, ht⟩
  · rwa [heq] at h
  · rcases h with ⟨d, hd⟩ | ⟨f, hf, htext⟩
    · rw [← hd] at hT
      exact absurd (d.mem_text (List.mem_of_getElem? hT)) (by decide)
    · rw [← htext] at hT ht
      rw [ht]
      exact .inr (hf.exists_set hi hT hc)

/-! ### The first fraction -/

/-- What the first fraction follows: a `T` and a time of day in digits of any script. -/
structure FractionStart where
  a : CodePoint
  b : CodePoint
  c : CodePoint
  d : CodePoint
  e : CodePoint
  f : CodePoint
  isDigit : ∀ x ∈ [a, b, c, d, e, f], (digitValue? x.toChar).isSome = true

namespace FractionStart

/-- The time of day and the point after it. -/
def time (s : FractionStart) : Text :=
  [s.a, s.b, CodePoint.ofChar ':', s.c, s.d, CodePoint.ofChar ':', s.e, s.f, CodePoint.ofChar '.']

/-- The text of a time of day with a fraction, and of what follows it. -/
def text (s : FractionStart) (ds : List (Fin 10)) (rest : Text) : Text :=
  CodePoint.ofChar 'T' :: (s.time ++ (ds.map digit ++ rest))

end FractionStart

/-- No digit of any script is a sign or a `Z`. -/
theorem endsClock_of_digitValue? {c : CodePoint} (h : (digitValue? c.toChar).isSome = true) :
    endsClock c.val = false := by
  rw [← Bool.not_eq_true]
  intro hends
  have hsign : c = CodePoint.ofChar '+' ∨ c = CodePoint.ofChar '-' ∨ c = CodePoint.ofChar 'Z' := by
    simp only [endsClock, Bool.or_eq_true, decide_eq_true_eq] at hends
    rcases hends with (hv | hv) | hv
    · exact .inl (Fin.ext hv)
    · exact .inr (.inl (Fin.ext hv))
    · exact .inr (.inr (Fin.ext hv))
  rcases hsign with rfl | rfl | rfl
  · exact absurd h (by decide)
  · exact absurd h (by decide)
  · exact absurd h (by decide)

/-- ASCII digits are those of some digits. -/
theorem exists_map_digit {t : Text} (h : ∀ c ∈ t, isAsciiDigit c.toChar = true) :
    ∃ ds : List (Fin 10), t = ds.map digit := by
  induction t with
  | nil => exact ⟨[], rfl⟩
  | cons c t ih =>
    rw [List.forall_mem_cons] at h
    obtain ⟨ds, rfl⟩ := ih h.2
    obtain ⟨hle, hge⟩ := (isAsciiDigit_iff _).1 h.1
    have hc : c.isHalf = false :=
      CodePoint.isHalf_eq_false_of_toChar (by omega)
    rw [CodePoint.toNat_toChar hc] at hle hge
    refine ⟨⟨c.val - 48, by omega⟩ :: ds, ?_⟩
    rw [List.map_cons]
    refine congrArg (· :: _) (Fin.ext ?_)
    rw [val_digit]
    exact (Nat.add_sub_cancel' hle).symm

/-- **What is filled up** is a fraction after a time of day. -/
theorem exists_fractionStart {t : Text} (h : startsFraction t = true) :
    ∃ (s : FractionStart) (ds : List (Fin 10)) (rest : Text), ds ≠ [] ∧
      (∀ c ∈ rest.head?, isAsciiDigit c.toChar = false) ∧ t = s.text ds rest ∧
      sixDigitFraction t = s.text (firstPlaces 6 ds) rest := by
  obtain ⟨a, b, c, d, e, f, g, more, ht, hdigits, hg⟩ := exists_of_startsFraction h
  let isDigit (x : CodePoint) : Bool := isAsciiDigit x.toChar
  obtain ⟨ds, hds⟩ := exists_map_digit (t := (g :: more).takeWhile isDigit)
    fun x hx => List.mem_takeWhile_imp (p := isDigit) hx
  have hsplit : ds.map digit ++ (g :: more).dropWhile isDigit = g :: more := by
    rw [← hds, List.takeWhile_append_dropWhile]
  have hrest : ∀ x ∈ ((g :: more).dropWhile isDigit).head?, isAsciiDigit x.toChar = false := by
    intro x hx
    have hnot := List.head?_dropWhile_not isDigit (g :: more)
    rw [hx] at hnot
    exact hnot
  let s : FractionStart := ⟨a, b, c, d, e, f, hdigits⟩
  have htext : t = s.text ds ((g :: more).dropWhile isDigit) := by
    rw [FractionStart.text, hsplit]
    exact ht
  refine ⟨s, ds, _, ?_, hrest, htext, ?_⟩
  · rintro rfl
    rw [List.takeWhile_cons_of_pos (show isDigit g = true from hg)] at hds
    exact absurd hds nofun
  · rw [htext] at h ⊢
    exact sixDigitFraction_of_startsFraction rfl ds hrest h

namespace FractionStart

theorem unsigned_time (s : FractionStart) : ∀ c ∈ s.time, endsClock c.val = false := by
  have hdigit {x : CodePoint} (hx : x ∈ [s.a, s.b, s.c, s.d, s.e, s.f]) : endsClock x.val = false :=
    endsClock_of_digitValue? (s.isDigit x hx)
  simp only [time, List.forall_mem_cons, List.not_mem_nil, IsEmpty.forall_iff, implies_true,
    and_true]
  exact ⟨hdigit (by simp), hdigit (by simp), rfl, hdigit (by simp), hdigit (by simp), rfl,
    hdigit (by simp), hdigit (by simp), rfl⟩

theorem unsigned_digits (ds : List (Fin 10)) : ∀ c ∈ ds.map digit, endsClock c.val = false := by
  intro c hc
  obtain ⟨d, -, rfl⟩ := List.mem_map.1 hc
  simp only [endsClock, val_digit, Bool.or_eq_false_iff, decide_eq_false_iff_not]
  omega

theorem text_append (s : FractionStart) (ds : List (Fin 10)) (rest t : Text) :
    s.text ds (rest ++ t) = s.text ds rest ++ t := by
  simp [text]

theorem unsigned_text (s : FractionStart) (ds : List (Fin 10)) :
    ∀ c ∈ s.text ds [], endsClock c.val = false := by
  rw [text, List.append_nil, List.forall_mem_cons, List.forall_mem_append]
  exact ⟨rfl, s.unsigned_time, unsigned_digits ds⟩

/-- A fraction may be passed over in the place of another. -/
theorem alike (s : FractionStart) (ds es : List (Fin 10)) (rest : Text) :
    Alike (s.text ds rest) (s.text es rest) where
  head := rfl
  single hlen := absurd hlen (by simp [text, time])
  mem c hc := by
    simp only [text, List.mem_cons, List.mem_append] at hc ⊢
    rcases hc with h | h | h | h
    · exact .inl (.inl h)
    · exact .inl (.inr (.inl h))
    · obtain ⟨d, -, rfl⟩ := List.mem_map.1 h
      exact .inr (isAsciiDigit_digit d)
    · exact .inl (.inr (.inr (.inr h)))

end FractionStart

theorem sixDigitFraction_cons {c : CodePoint} {t : Text} (h : ¬startsFraction (c :: t) = true) :
    sixDigitFraction (c :: t) = c :: sixDigitFraction t := by
  rw [sixDigitFraction, if_neg h]

/-- What is passed over may have been so before the first fraction was filled up. -/
theorem alike_sixDigitFraction (t : Text) : Alike (sixDigitFraction t) t := by
  induction t with
  | nil => exact .refl []
  | cons c t ih =>
    by_cases hstart : startsFraction (c :: t) = true
    · obtain ⟨s, ds, rest, -, -, ht, hsix⟩ := exists_fractionStart hstart
      rw [hsix, ht]
      exact s.alike _ _ rest
    · rw [sixDigitFraction_cons hstart]
      exact ih.cons c

/-- What stands before the first `T` was there before the first fraction was filled up. -/
theorem exists_append_of_sixDigitFraction {u t y : Text} (hu : ∀ c ∈ u, c ≠ CodePoint.ofChar 'T')
    (h : sixDigitFraction t = u ++ y) : ∃ v, t = u ++ v ∧ sixDigitFraction v = y ∧ Alike y v := by
  induction u generalizing t with
  | nil =>
    have hsix : sixDigitFraction t = y := h
    exact ⟨t, rfl, hsix, hsix ▸ alike_sixDigitFraction t⟩
  | cons c u ih =>
    rw [List.forall_mem_cons] at hu
    cases t with
    | nil => exact absurd h nofun
    | cons d t =>
      by_cases hstart : startsFraction (d :: t) = true
      · obtain ⟨s, ds, rest, -, -, -, hsix⟩ := exists_fractionStart hstart
        exact absurd (List.cons.inj (h.symm.trans hsix)).1 hu.1
      · rw [sixDigitFraction_cons hstart] at h
        obtain ⟨rfl, ht⟩ := List.cons.inj h
        obtain ⟨v, rfl, hv⟩ := ih hu.2 ht
        exact ⟨v, rfl, hv⟩

/-- A character that is not in the first part of a text stands behind that part. -/
theorem exists_append_of_not_mem {u rest before after : Text} {c : CodePoint}
    (h : u ++ rest = before ++ c :: after) (hc : c ∉ u) :
    ∃ v, before = u ++ v ∧ rest = v ++ c :: after := by
  rcases List.append_eq_append_iff.1 h with ⟨v, hbefore, hrest⟩ | ⟨v, hu, hrest⟩
  · exact ⟨v, hbefore, hrest⟩
  · cases v with
    | nil =>
      refine ⟨[], by rw [hu, List.append_nil, List.append_nil], ?_⟩
      rw [List.nil_append, hrest, List.nil_append]
    | cons d v =>
      obtain ⟨rfl, -⟩ := List.cons.inj hrest
      exact absurd (by rw [hu]; simp) hc

/-- **Filling up a fraction keeps the end of a time in its place.** -/
theorem exists_cut_of_sixDigitFraction {t passed tail : Text}
    (h : sixDigitFraction t = passed ++ tail) (hp : ∀ c ∈ passed, endsClock c.val = false)
    (htail : ∀ c ∈ tail.head?, endsClock c.val = true) :
    ∃ u v, t = u ++ v ∧ Alike passed u ∧ (v = tail ∨ sixDigitFraction v = tail) := by
  cases tail with
  | nil =>
    rw [List.append_nil] at h
    exact ⟨t, [], (List.append_nil t).symm, h ▸ alike_sixDigitFraction t, .inl rfl⟩
  | cons x tail =>
    induction passed generalizing t with
    | nil => exact ⟨[], t, rfl, .refl [], .inr h⟩
    | cons p passed ih =>
      cases t with
      | nil => exact absurd h nofun
      | cons c t =>
        by_cases hstart : startsFraction (c :: t) = true
        · obtain ⟨s, ds, rest, -, -, ht, hsix⟩ := exists_fractionStart hstart
          rw [hsix, ← List.nil_append rest, s.text_append] at h
          obtain ⟨more, hpassed, rfl⟩ := exists_append_of_not_mem h fun hx => by
            have hends := htail x rfl
            rw [s.unsigned_text _ x hx] at hends
            exact absurd hends Bool.false_ne_true
          rw [← s.text_append, List.nil_append] at hpassed
          rw [ht, s.text_append, hpassed]
          exact ⟨s.text ds more, x :: tail, rfl, s.alike _ _ more, .inl rfl⟩
        · rw [sixDigitFraction_cons hstart] at h
          obtain ⟨rfl, hsix⟩ := List.cons.inj h
          rw [List.forall_mem_cons] at hp
          obtain ⟨u, v, rfl, ha, hv⟩ := ih hp.2 hsix
          exact ⟨c :: u, v, rfl, ha.cons c, hv⟩

/-- What stands after a time was there before the first fraction was filled up. -/
theorem LooseZone.exists_of_sixDigitFraction {z : LooseZone} (hz : z.Fits) {t : Text}
    (h : t = z.text ∨ sixDigitFraction t = z.text) :
    ∃ w : LooseZone, w.Fits ∧ w.text = t ∧ (w = .absent → z = .absent) := by
  rcases h with rfl | hsix
  · exact ⟨z, hz, rfl, id⟩
  cases z with
  | absent =>
    have ha := alike_sixDigitFraction t
    rw [hsix] at ha
    exact ⟨.absent, trivial, ha.nil.symm, fun _ => rfl⟩
  | zulu small =>
    obtain ⟨v, rfl, -, ha⟩ := exists_append_of_sixDigitFraction (u := [zuluPoint small]) (y := [])
      (fun c hc => by rw [List.mem_singleton.1 hc]; cases small <;> decide) hsix
    exact ⟨.zulu small, trivial, by rw [ha.nil]; rfl, nofun⟩
  | zuluThen passed =>
    obtain ⟨v, rfl, -, ha⟩ := exists_append_of_sixDigitFraction (u := [zuluPoint false])
      (y := passed) (fun c hc => by rw [List.mem_singleton.1 hc]; decide) hsix
    exact ⟨.zuluThen v, ⟨ha.null hz.1, ha.whole hz.2⟩, rfl, nofun⟩
  | signed negative clock passed =>
    have hmark : ∀ c ∈ signPoint negative :: clock.text, c ≠ CodePoint.ofChar 'T' := by
      rw [List.forall_mem_cons]
      refine ⟨by cases negative <;> decide, fun c hc => ?_⟩
      rintro rfl
      exact absurd (clock.mem_text hc).2.1 (by decide)
    obtain ⟨v, rfl, -, ha⟩ := exists_append_of_sixDigitFraction hmark hsix
    exact ⟨.signed negative clock v, ⟨hz.1.alike ha, ha.null hz.2⟩, rfl, nofun⟩

/-- Characters after a time that are no sign and no digit start its fraction. -/
theorem LooseForm.IsPrepared.exists_fraction {f : LooseForm} (hf : f.IsPrepared)
    {m x : CodePoint} {rest : Text} (hm : endsClock m.val = false)
    (hdigit : isAsciiDigit m.toChar = false) (hx : endsClock x.val = false)
    (h : f.clock.fraction.elim [] Fraction.text ++ (f.passed ++ f.zone.text) = m :: x :: rest) :
    ∃ g, f.clock.fraction = some g ∧ g.mark.text = [m] ∧
      g.digits.map digit ++ (f.passed ++ f.zone.text) = x :: rest := by
  have hends {c : CodePoint} {t : Text} (hc : endsClock c.val = false) : f.zone.text ≠ c :: t := by
    intro hz
    have := hf.ends c (by rw [hz]; rfl)
    rw [hc] at this
    exact absurd this Bool.false_ne_true
  cases hfraction : f.clock.fraction with
  | none =>
    rw [hfraction, Option.elim_none, List.nil_append] at h
    rcases hf.passes with hnil | ⟨-, p, hp, -⟩ | ⟨g, hg, -⟩
    · rw [hnil, List.nil_append] at h
      exact absurd h (hends hm)
    · rw [hp, List.singleton_append] at h
      exact absurd (List.cons.inj h).2 (hends hx)
    · cases hfraction.symm.trans hg
  | some g =>
    rw [hfraction, Option.elim_some, Fraction.text, List.append_assoc] at h
    refine ⟨g, rfl, ?_⟩
    have hmark {mark : CodePoint} (hg : g.mark.text = [mark]) : g.mark.text = [m] ∧
        g.digits.map digit ++ (f.passed ++ f.zone.text) = x :: rest := by
      rw [hg, List.singleton_append] at h
      obtain ⟨rfl, htail⟩ := List.cons.inj h
      exact ⟨hg, htail⟩
    cases hg : g.mark with
    | bare =>
      obtain ⟨d, ds, hds⟩ := List.exists_cons_of_ne_nil g.digits_ne_nil
      rw [hg, hds] at h
      rw [← (List.cons.inj h).1, isAsciiDigit_digit] at hdigit
      cases hdigit
    | point => exact hg ▸ hmark (by rw [hg]; rfl)
    | comma => exact hg ▸ hmark (by rw [hg]; rfl)
    | colon => exact hg ▸ hmark (by rw [hg]; rfl)

/-- The time that a fraction start belongs to, when what is read is filled up there. -/
theorem LooseForm.IsPrepared.exists_point {f : LooseForm} (hf : f.IsPrepared) {s : FractionStart}
    {ds : List (Fin 10)} (hds : ds ≠ []) {rest : Text}
    (h : f.clock.text ++ (f.passed ++ f.zone.text) = s.time ++ (ds.map digit ++ rest)) :
    ∃ g, f.clock.fraction = some g ∧ g.mark = .point ∧ f.clock.colons = true ∧
      f.clock.later.length = 2 ∧
      g.digits.map digit ++ (f.passed ++ f.zone.text) = ds.map digit ++ rest := by
  have hdigit {x : CodePoint} (hx : x ∈ [s.a, s.b, s.c, s.d, s.e, s.f]) : endsClock x.val = false :=
    endsClock_of_digitValue? (s.isDigit x hx)
  have hpair (n : Nat) : ∃ p q, numberText 2 n = [digit p, digit q] := ⟨_, _, rfl⟩
  have hcolon (d : Fin 10) : digit d ≠ CodePoint.ofChar ':' := by
    revert d
    decide
  -- a colon cannot start the fraction of a time of fewer than three parts
  have hshort {x : CodePoint} {t : Text} (hlen : f.clock.later.length ≠ 2)
      (hx : endsClock x.val = false)
      (ht : f.clock.fraction.elim [] Fraction.text ++ (f.passed ++ f.zone.text) =
        CodePoint.ofChar ':' :: x :: t) : False := by
    obtain ⟨g, hg, hmark, -⟩ := hf.exists_fraction rfl rfl hx ht
    exact hlen (f.clock.colon_fits g hg (FractionMark.text_injective hmark)).2
  obtain ⟨p, q, hhour⟩ := hpair f.clock.hour
  have hlen := f.clock.length_later
  rw [ClockForm.text, hhour, FractionStart.time] at h
  rcases hlater : f.clock.later with _ | ⟨n, _ | ⟨k, _ | ⟨_, _⟩⟩⟩
  · rw [hlater] at h
    simp only [laterText, List.flatMap_nil, List.nil_append, List.cons_append, List.cons.injEq] at h
    exact (hshort (by simp [hlater]) (hdigit (by simp)) h.2.2).elim
  · obtain ⟨p₁, q₁, hn⟩ := hpair n
    rw [hlater] at h
    cases hcolons : f.clock.colons with
    | false =>
      rw [hcolons] at h
      simp only [laterText, markText, hn, List.flatMap_cons, List.flatMap_nil, List.nil_append,
        List.cons_append, List.cons.injEq, if_neg Bool.false_ne_true] at h
      exact absurd h.2.2.1 (hcolon p₁)
    | true =>
      rw [hcolons] at h
      simp only [laterText, markText, hn, List.flatMap_cons, List.flatMap_nil, List.nil_append,
        List.cons_append, List.cons.injEq, if_true] at h
      exact (hshort (by simp [hlater]) (hdigit (by simp)) h.2.2.2.2.2).elim
  · obtain ⟨p₁, q₁, hn⟩ := hpair n
    obtain ⟨p₂, q₂, hk⟩ := hpair k
    rw [hlater] at h
    cases hcolons : f.clock.colons with
    | false =>
      rw [hcolons] at h
      simp only [laterText, markText, hn, List.flatMap_cons, List.nil_append, List.cons_append,
        List.cons.injEq, if_neg Bool.false_ne_true] at h
      exact absurd h.2.2.1 (hcolon p₁)
    | true =>
      rw [hcolons] at h
      simp only [laterText, markText, hn, hk, List.flatMap_cons, List.flatMap_nil, List.nil_append,
        List.cons_append, List.cons.injEq, if_true] at h
      obtain ⟨d, es, rfl⟩ := List.exists_cons_of_ne_nil hds
      obtain ⟨g, hg, hmark, htail⟩ := hf.exists_fraction rfl rfl
        (FractionStart.unsigned_digits (d :: es) _ (List.mem_map_of_mem List.mem_cons_self))
        h.2.2.2.2.2.2.2.2
      exact ⟨g, hg, FractionMark.text_injective hmark, rfl, rfl, htail⟩
  · rw [hlater] at hlen
    simp at hlen

/-- Digits end where the first character is that is none. -/
theorem eq_of_map_digit_append {ds es : List (Fin 10)} {u v : Text}
    (h : ds.map digit ++ u = es.map digit ++ v)
    (hu : ∀ c ∈ u.head?, isAsciiDigit c.toChar = false)
    (hv : ∀ c ∈ v.head?, isAsciiDigit c.toChar = false) : ds = es ∧ u = v := by
  have hdigit {d : Fin 10} {s t : Text} (hs : digit d :: s = t)
      (ht : ∀ c ∈ t.head?, isAsciiDigit c.toChar = false) : False := by
    have hd := ht (digit d) (by rw [← hs]; rfl)
    rw [isAsciiDigit_digit] at hd
    exact absurd hd nofun
  induction ds generalizing es with
  | nil =>
    cases es with
    | nil => exact ⟨rfl, h⟩
    | cons e es => exact (hdigit h.symm hu).elim
  | cons d ds ih =>
    cases es with
    | nil => exact (hdigit h hv).elim
    | cons e es =>
      obtain ⟨hd, htail⟩ := List.cons.inj h
      obtain ⟨rfl, huv⟩ := ih htail
      have hval := congrArg Fin.val hd
      rw [val_digit, val_digit] at hval
      exact ⟨by rw [Fin.ext (Nat.add_left_cancel hval)], huv⟩

/-- What stands after a fraction does not go on with a digit. -/
theorem LooseForm.IsPrepared.head?_passed {f : LooseForm} (hf : f.IsPrepared) {g : Fraction}
    (hg : f.clock.fraction = some g) :
    ∀ c ∈ (f.passed ++ f.zone.text).head?, isAsciiDigit c.toChar = false := by
  have hpasses := hf.passes
  cases hp : f.passed with
  | nil =>
    intro c hc
    have hends := hf.ends c hc
    simp only [endsClock, Bool.or_eq_true, decide_eq_true_eq] at hends
    refine eq_false_of_ne_true fun hdigit => ?_
    rw [isAsciiDigit_iff, CodePoint.toNat_toChar (CodePoint.isHalf_of_ascii (by omega))] at hdigit
    omega
  | cons c passed =>
    rw [hp] at hpasses
    rcases hpasses with hnil | ⟨hnone, -⟩ | ⟨_, -, -, hdigit, -⟩
    · cases hnil
    · cases hnone.symm.trans hg
    · exact hdigit

/-- What is read with the fraction that is filled up is written with the fraction that was. -/
theorem LooseForm.IsPrepared.exists_filled {f : LooseForm} (hf : f.IsPrepared) {s : FractionStart}
    {ds : List (Fin 10)} (hds : ds ≠ []) {rest : Text}
    (hrest : ∀ c ∈ rest.head?, isAsciiDigit c.toChar = false)
    (h : s.text (firstPlaces 6 ds) rest =
      f.separator :: (f.clock.text ++ (f.passed ++ f.zone.text))) :
    ∃ g : LooseForm, g.Fits ∧ g.text = f.date.text ++ s.text ds rest := by
  obtain ⟨hseparator, htime⟩ := List.cons.inj h
  have hsix : firstPlaces 6 ds ≠ [] := fun hnil => by
    have hlen := congrArg List.length hnil
    rw [length_firstPlaces] at hlen
    exact absurd hlen (by decide)
  obtain ⟨g, hg, hpoint, hcolons, hlater, hdigits⟩ := hf.exists_point hsix htime.symm
  obtain ⟨hgd, hpassed⟩ := eq_of_map_digit_append hdigits (hf.head?_passed hg) hrest
  -- the parts of the time are those that the fraction follows
  have hparts : numberText 2 f.clock.hour ++
      (laterText f.clock.colons f.clock.later ++ [CodePoint.ofChar '.']) = s.time := by
    have hmark : g.mark.text = [CodePoint.ofChar '.'] := by rw [hpoint]; rfl
    rw [hpassed, ClockForm.text, hg, Option.elim_some, Fraction.text, hmark, hgd] at htime
    refine List.append_cancel_right (Eq.trans ?_ htime.symm)
    simp only [List.append_assoc]
  let clock : ClockForm :=
    { f.clock with
      fraction := some ⟨.point, ds, hds⟩
      colon_fits := fun g hg hc => by
        obtain rfl := Option.some.inj hg
        cases hc
      bare_fits := fun g hg hc => by
        obtain rfl := Option.some.inj hg
        cases hc }
  refine ⟨⟨f.date, f.separator, clock, f.passed, f.zone⟩, ⟨?_, hf.unsigned, hf.zone_fits,
    hf.null_of_absent⟩, ?_⟩
  · rcases hf.passes with hnil | ⟨hnone, -⟩ | ⟨_, -, -, hdigit⟩
    · exact .inl hnil
    · cases hnone.symm.trans hg
    · refine .inr (.inr ⟨_, rfl, .inr ⟨hseparator.symm, hcolons, hlater, fun g hg => ?_⟩, hdigit⟩)
      obtain rfl := Option.some.inj hg
      rfl
  · rw [LooseForm.text, hpassed, FractionStart.text, ← hparts, ← hseparator]
    simp only [clock, ClockForm.text, Option.elim_some, Fraction.text, FractionMark.text,
      List.append_assoc]

/-- **The form of a text whose first fraction is filled up is that of the text.** -/
theorem exists_form_of_sixDigitFraction {t : Text}
    (h : (∃ d : DateForm, d.text = sixDigitFraction t) ∨
      ∃ f : LooseForm, f.IsPrepared ∧ f.text = sixDigitFraction t) :
    (∃ d : DateForm, d.text = t) ∨ ∃ f : LooseForm, f.Fits ∧ f.text = t := by
  have hdate (d : DateForm) : ∀ c ∈ d.text, c ≠ CodePoint.ofChar 'T' := by
    rintro c hc rfl
    exact absurd (d.mem_text hc) (by decide)
  rcases h with ⟨d, hd⟩ | ⟨f, hf, htext⟩
  · obtain ⟨v, rfl, -, ha⟩ := exists_append_of_sixDigitFraction (hdate d)
      (hd.symm.trans (List.append_nil _).symm)
    rw [ha.nil, List.append_nil]
    exact .inl ⟨d, rfl⟩
  · obtain ⟨v, rfl, hv, -⟩ := exists_append_of_sixDigitFraction (hdate f.date) htext.symm
    cases v with
    | nil => exact absurd hv nofun
    | cons c v =>
      by_cases hstart : startsFraction (c :: v) = true
      · obtain ⟨s, ds, rest, hds, hrest, ht, hsix⟩ := exists_fractionStart hstart
        rw [ht]
        exact .inr (hf.exists_filled hds hrest (hsix.symm.trans hv))
      · rw [sixDigitFraction_cons hstart] at hv
        obtain ⟨rfl, hclock⟩ := List.cons.inj hv
        obtain ⟨w, rfl, hw, -⟩ := exists_append_of_sixDigitFraction (by
          rintro c hc rfl
          exact absurd (f.clock.mem_text hc).2.1 (by decide)) hclock
        obtain ⟨u, z, rfl, ha, hz⟩ := exists_cut_of_sixDigitFraction hw hf.unsigned hf.ends
        obtain ⟨zone, hzone, rfl, habsent⟩ := LooseZone.exists_of_sixDigitFraction hf.zone_fits hz
        exact .inr ⟨⟨f.date, f.separator, f.clock, u, zone⟩,
          ⟨(hf.passes.alike ha).mono False.elim, ha.unsigned hf.unsigned, hzone,
            fun heq => ha.null (hf.null_of_absent (habsent heq))⟩, rfl⟩

/-! ### The offset of zero -/

/-- Preparing a text replaces its final `Z` or nothing. -/
theorem zuluToOffset_cases (t : Text) :
    zuluToOffset t = t ∨ ∃ u small, t = u ++ [zuluPoint small] ∧
      zuluToOffset t = u ++ CodePoint.ofChar '+' :: "00:00" := by
  rw [zuluToOffset]
  split
  · exact .inl rfl
  · rename_i c before heq
    have ht : t = before.reverse ++ [c] := by
      rw [← List.reverse_cons, ← heq, List.reverse_reverse]
    split_ifs with hc
    · rw [Bool.or_eq_true, decide_eq_true_eq, decide_eq_true_eq] at hc
      rcases hc with rfl | rfl
      · exact .inr ⟨before.reverse, false, ht, rfl⟩
      · exact .inr ⟨before.reverse, true, ht, rfl⟩
    · exact .inl rfl

/-- What starts with a 0 does so before the sign. -/
theorem StartsWithNull.append {v w : Text} {c : CodePoint} (hc : c.val ≠ 0)
    (h : StartsWithNull (v ++ c :: w)) (t : Text) : (v ++ t).head? = (v ++ c :: w).head? := by
  cases v with
  | nil => exact absurd (h c rfl) hc
  | cons d v => rfl

/-- Where an offset of zero ends the text, a `Z` may. -/
theorem LooseZone.exists_zulu {z : LooseZone} (hz : z.Fits) {v : Text} (small : Bool)
    (h : z.text = v ++ CodePoint.ofChar '+' :: "00:00") :
    ∃ w : LooseZone, w.Fits ∧ w.text = v ++ [zuluPoint small] ∧ w ≠ .absent := by
  have hnull {v : Text} (hv : StartsWithNull (v ++ CodePoint.ofChar '+' :: "00:00")) :
      StartsWithNull (v ++ [zuluPoint small]) := by
    rw [StartsWithNull, hv.append (by decide)]
    exact hv
  have hwhole {v : Text} (hv : IsWhole (v ++ CodePoint.ofChar '+' :: "00:00")) :
      IsWhole (v ++ [zuluPoint small]) :=
    isWhole_append.2 ⟨(isWhole_append.1 hv).1, by cases small <;> exact isWhole_cons.2 ⟨rfl, nofun⟩⟩
  have hlong : 2 ≤ z.text.length := by
    rw [h, List.length_append]
    exact Nat.le_add_left_of_le (by decide)
  cases z with
  | absent => exact absurd hlong (by decide)
  | zulu => exact absurd hlong (Nat.not_succ_le_self 1)
  | zuluThen passed =>
    cases v with
    | nil => exact absurd (List.cons.inj h).1 (by decide)
    | cons c v =>
      obtain ⟨rfl, rfl⟩ := List.cons.inj h
      exact ⟨.zuluThen (v ++ [zuluPoint small]), ⟨hnull hz.1, hwhole hz.2⟩, rfl, nofun⟩
  | signed negative clock passed =>
    cases v with
    | nil => exact ⟨.zulu small, trivial, rfl, nofun⟩
    | cons c v =>
      obtain ⟨rfl, hclock⟩ := List.cons.inj h
      obtain ⟨v, rfl, rfl⟩ := exists_append_of_not_mem hclock fun hx =>
        absurd (clock.mem_text hx).1 (by decide)
      refine ⟨.signed negative clock (v ++ [zuluPoint small]), ⟨?_, hnull hz.2⟩, ?_, nofun⟩
      · rcases hz.1 with hnil | ⟨-, c, hone, -⟩ | ⟨g, hg, hsix, hdigit, hw⟩
        · exact absurd hnil (by simp)
        · have hlen := congrArg List.length hone
          rw [List.length_append, List.length_singleton] at hlen
          exact absurd hlen (Nat.ne_of_gt (Nat.lt_add_left _ (by decide)))
        · refine .inr (.inr ⟨g, hg, hsix, ?_, hwhole hw⟩)
          rwa [hz.2.append (by decide)]
      · simp [text]

/-- **The form of a text whose final `Z` is replaced is that of the text.** -/
theorem exists_form_of_zuluToOffset {t : Text}
    (h : (∃ d : DateForm, d.text = zuluToOffset t) ∨
      ∃ f : LooseForm, f.Fits ∧ f.text = zuluToOffset t) :
    IsIsoTimestamp t ∨ ∃ f : LooseForm, f.Fits ∧ f.text = t := by
  rcases zuluToOffset_cases t with heq | ⟨u, small, rfl, hzulu⟩
  · rw [heq] at h
    refine h.imp_left fun ⟨d, hd⟩ => ?_
    rw [← hd, ← List.append_nil d.text]
    exact .day d .absent
  · rw [hzulu] at h
    rcases h with ⟨d, hd⟩ | ⟨f, hf, htext⟩
    · exact absurd (d.mem_text (hd ▸ List.mem_append_right u List.mem_cons_self)) (by decide)
    · obtain ⟨v, rfl, hv⟩ := exists_append_of_not_mem htext fun hx =>
        absurd (f.date.mem_text hx) (by decide)
      rw [List.append_assoc]
      cases v with
      | nil => exact .inl (.day f.date (.zulu small))
      | cons c v =>
        obtain ⟨rfl, hclock⟩ := List.cons.inj hv
        obtain ⟨v, rfl, hpassed⟩ := exists_append_of_not_mem hclock fun hx =>
          absurd (f.clock.mem_text hx).1 (by decide)
        obtain ⟨v, rfl, hzone⟩ := exists_append_of_not_mem hpassed fun hx => by
          have hends := hf.unsigned _ hx
          exact absurd hends (by decide)
        obtain ⟨w, hw, hwtext, habsent⟩ := LooseZone.exists_zulu hf.zone_fits small hzone
        refine .inr ⟨⟨f.date, f.separator, f.clock, f.passed, w⟩,
          ⟨hf.passes, hf.unsigned, hw, fun heq => absurd heq habsent⟩, ?_⟩
        rw [LooseForm.text, hwtext]
        simp

/-! ### Acceptance -/

/-- **What is accepted is a timestamp of ISO 8601, or it deviates from one in a form that the
reader lets pass**: characters are passed over, or a fraction stands where none may. -/
theorem isIsoTimestamp_or_deviates_of_parse {t : Text} {millis : Int}
    (h : parse (.text t) = .ok millis) :
    IsIsoTimestamp t ∨ ∃ f : LooseForm, f.Fits ∧ f.Deviates ∧ f.text = t := by
  obtain ⟨s, hs, hmillis⟩ := parse_eq_ok_iff.1 h
  obtain rfl := Value.text.inj hs
  rw [millis?] at hmillis
  split_ifs at hmillis with hhalf
  obtain ⟨micros, hinstant, -⟩ := Option.map_eq_some_iff.1 hmillis
  have hw : ∀ c ∈ replaceHalf (sixDigitFraction (zuluToOffset t)), c.isHalf = false := by
    rw [Bool.not_eq_true, List.any_eq_false] at hhalf
    exact fun c hc => eq_false_of_ne_true (hhalf c hc)
  have hread := exists_form_of_instant? hw hinstant
  rcases exists_form_of_zuluToOffset
    (exists_form_of_sixDigitFraction (exists_form_of_replaceHalf hread)) with hiso | ⟨f, hf, rfl⟩
  · exact .inl hiso
  · by_cases hd : f.Deviates
    · exact .inr ⟨f, hf, hd, rfl⟩
    · exact .inl (LooseForm.isIsoTimestamp_text hd)

/-! ### A text with letters that are passed over -/

/-- The characters of ISO 8601, a separator apart. -/
def isIsoPoint (c : CodePoint) : Bool :=
  (43 ≤ c.val && c.val ≤ 58) || c.val = 87 || c.val = 90 || c.val = 122

/-- At most one character of a timestamp of ISO 8601 is none of its own. -/
theorem IsIsoTimestamp.length_filter_le {t : Text} (h : IsIsoTimestamp t) :
    (t.filter fun c => !isIsoPoint c).length ≤ 1 := by
  have hnil {s : Text} (hs : ∀ c ∈ s, isIsoPoint c = true) :
      s.filter (fun c => !isIsoPoint c) = [] := by
    rw [List.filter_eq_nil_iff]
    intro c hc
    simp [hs c hc]
  have hdate (d : DateForm) : d.text.filter (fun c => !isIsoPoint c) = [] := by
    refine hnil fun c hc => ?_
    have := d.mem_text hc
    simp only [isIsoPoint, Bool.or_eq_true, Bool.and_eq_true, decide_eq_true_eq]
    omega
  have hclock (c : ClockForm) : c.text.filter (fun c => !isIsoPoint c) = [] := by
    refine hnil fun x hx => ?_
    have := c.mem_text hx
    simp only [isIsoPoint, Bool.or_eq_true, Bool.and_eq_true, decide_eq_true_eq]
    omega
  have hzone {zone : Text} (hz : IsIsoZone zone) : zone.filter (fun c => !isIsoPoint c) = [] := by
    cases hz with
    | absent => rfl
    | zulu small => cases small <;> rfl
    | @signed negative c _ =>
      have hsign : isIsoPoint (signPoint negative) = true := by cases negative <;> rfl
      rw [List.filter_cons_of_neg (by simp [hsign]), hclock]
  cases h with
  | day date hz => rw [List.filter_append, hdate, hzone hz]; exact Nat.zero_le 1
  | time date separator hc hz =>
    rw [List.filter_append, hdate, List.nil_append, List.filter_cons, List.filter_append, hclock,
      hzone hz]
    split_ifs <;> simp

/-- Three letters stand between a fraction and an offset. -/
def overlookedText : Text := "2016-01-20T06:59:00.210xyz+01:00"

theorem millis?_overlookedText : millis? overlookedText = some 1453269540210 := by
  decide +kernel

theorem not_isIsoTimestamp_overlookedText : ¬IsIsoTimestamp overlookedText := by
  intro h
  exact absurd h.length_filter_le (by decide +kernel)

/-- **A text with letters in it is read.** -/
theorem parse_overlookedText :
    parse (.text overlookedText) = .ok 1453269540210 ∧ ¬IsIsoTimestamp overlookedText :=
  ⟨parse_of_millis? millis?_overlookedText, not_isIsoTimestamp_overlookedText⟩

/-- The letters are passed over. -/
theorem deviates_overlookedText :
    parse (.text overlookedText) = .ok 1453269540210 ∧
      ∃ f : LooseForm, f.Fits ∧ f.Deviates ∧ f.text = overlookedText := by
  have h : parse (.text overlookedText) = .ok 1453269540210 :=
    parse_of_millis? millis?_overlookedText
  exact ⟨h, (isIsoTimestamp_or_deviates_of_parse h).resolve_left not_isIsoTimestamp_overlookedText⟩

end Timestamp
end MachineCatalog
