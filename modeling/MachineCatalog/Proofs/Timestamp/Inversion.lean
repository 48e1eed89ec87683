/-
# What is read was written so

The reader of timestamps goes by position.  Here its success is turned into the form of what it
read: digits (`digits?_eq_some`), a fraction (`fraction?_eq_some`), a time with the characters that
are passed over after it (`clock?_eq_some`), a time with an offset (`time?_eq_some`) and a date
(`date?_eq_some`).
-/

import MachineCatalog.Proofs.Timestamp.Grammar

namespace MachineCatalog
namespace Timestamp

open Text

/-! ### Digits -/

/-- The octets of an ASCII text. -/
def asciiOctets (t : Text) : List Nat := t.map Fin.val

@[simp] theorem asciiOctets_nil : asciiOctets [] = [] := rfl

@[simp] theorem asciiOctets_cons (c : CodePoint) (t : Text) :
    asciiOctets (c :: t) = c.val :: asciiOctets t := rfl

@[simp] theorem asciiOctets_append (s t : Text) :
    asciiOctets (s ++ t) = asciiOctets s ++ asciiOctets t := List.map_append

@[simp] theorem length_asciiOctets (t : Text) : (asciiOctets t).length = t.length :=
  List.length_map _

theorem asciiOctets_digits (ds : List (Fin 10)) : asciiOctets (ds.map digit) = digitOctets ds :=
  map_val_digits ds

theorem asciiOctets_numberText (width n : Nat) :
    asciiOctets (numberText width n) = digitOctets (places width n) := map_val_digits _

theorem digits?_go_eq_some {count n : Nat} {s : List Nat} {v : Nat} {rest : List Nat}
    (h : digits?.go n count s = some (v, rest)) :
    ∃ ds : List (Fin 10), ds.length = count ∧ s = digitOctets ds ++ rest ∧
      v = (ds.map Fin.val).foldl (fun n d => n * 10 + d) n := by
  induction count generalizing n s with
  | zero =>
    cases h
    exact ⟨[], rfl, rfl, rfl⟩
  | succ count ih =>
    cases s with
    | nil => exact absurd h nofun
    | cons b s =>
      obtain ⟨d, hd, hgo⟩ := Option.bind_eq_some_iff.1 h
      obtain ⟨rfl, hlt⟩ := digit?_eq_some_iff.1 hd
      obtain ⟨ds, rfl, rfl, rfl⟩ := ih hgo
      exact ⟨⟨d, hlt⟩ :: ds, rfl, rfl, rfl⟩

/-- **Digits that are read are those of the number.** -/
theorem digits?_eq_some {width n : Nat} {s rest : List Nat} (h : digits? width s = some (n, rest)) :
    n < 10 ^ width ∧ s = asciiOctets (numberText width n) ++ rest := by
  obtain ⟨ds, rfl, rfl, rfl⟩ := digits?_go_eq_some h
  refine ⟨?_, ?_⟩
  · exact ofDigitValues_map_val_lt ds
  · rw [asciiOctets_numberText]
    exact congrArg (digitOctets · ++ rest) (places_ofDigitValues ds).symm

/-- Octets that are all digits are those of some digits. -/
theorem exists_digitOctets {s : List Nat} (h : ∀ b ∈ s, (digit? b).isSome = true) :
    ∃ ds, s = digitOctets ds := by
  induction s with
  | nil => exact ⟨[], rfl⟩
  | cons b s ih =>
    rw [List.forall_mem_cons] at h
    obtain ⟨ds, rfl⟩ := ih h.2
    obtain ⟨d, hd⟩ := Option.isSome_iff_exists.1 h.1
    obtain ⟨rfl, hlt⟩ := digit?_eq_some_iff.1 hd
    exact ⟨⟨d, hlt⟩ :: ds, rfl⟩

/-! ### Times -/

/-- The octets that may be passed over after a time: one after a time without a fraction, and any
after a fraction of six digits or more. -/
def PassesOctets (f : Option Fraction) (passed : List Nat) : Prop :=
  passed = [] ∨ (f = none ∧ passed.length = 1) ∨
    ∃ g, f = some g ∧ 6 ≤ g.digits.length ∧ ∀ b ∈ passed.head?, digit? b = none

/-- A fraction that is read: its digits, and what is passed over after six of them. -/
theorem fraction?_eq_some {s : List Nat} {next micro : Nat} {junk : Bool}
    (h : fraction? s next = some (micro, junk)) :
    ∃ ds passed, min 6 s.length ≤ ds.length ∧ s = digitOctets ds ++ passed ∧
      junk = decide (passed.headD next ≠ 0) ∧
      (passed = [] ∨ 6 ≤ ds.length ∧ ∀ b ∈ passed.head?, digit? b = none) := by
  obtain ⟨⟨n, rest⟩, hread, h⟩ := Option.bind_eq_some_iff.1 h
  obtain ⟨ds, hlen, rfl, -⟩ := digits?_go_eq_some hread
  let isDigit (b : Nat) : Bool := (digit? b).isSome
  obtain ⟨es, hes⟩ : ∃ es, rest.takeWhile isDigit = digitOctets es :=
    exists_digitOctets fun b hb => List.mem_takeWhile_imp (p := isDigit) hb
  have hrest : rest.takeWhile isDigit ++ rest.dropWhile isDigit = rest :=
    List.takeWhile_append_dropWhile
  cases h
  refine ⟨ds ++ es, rest.dropWhile isDigit, ?_, ?_, rfl, ?_⟩
  · rw [← hlen, List.length_append]
    exact Nat.le_add_right ..
  · rw [digitOctets_append, List.append_assoc, ← hes, hrest]
  · cases hd : rest.dropWhile isDigit with
    | nil => exact .inl rfl
    | cons b passed =>
      have hmore : 0 < rest.length := by
        rw [← hrest, hd, List.length_append, List.length_cons]
        omega
      rw [List.length_append, length_digitOctets] at hlen
      refine .inr ⟨?_, ?_⟩
      · rw [List.length_append]
        omega
      · rintro c hc
        have hnot := List.head?_dropWhile_not isDigit rest
        rw [hd] at hnot
        obtain rfl := Option.some.inj hc
        exact Option.isNone_iff_eq_none.1 (by simpa [isDigit] using hnot)

/-- What stands after the last part of a time: possibly a fraction, and what is passed over. -/
structure EndsAs (colons : Bool) (count : Nat) (s : List Nat) (next : Nat) (junk : Bool)
    (f : Option Fraction) (passed : List Nat) : Prop where
  eq : s = asciiOctets (f.elim [] Fraction.text) ++ passed
  junk_eq : junk = decide (passed.headD next ≠ 0)
  passes : PassesOctets f passed
  colon_fits : ∀ g ∈ f, g.mark = .colon → colons = true ∧ count = 2
  bare_fits : ∀ g ∈ f, g.mark = .bare → colons = false ∧ count = 2 ∧ 2 ≤ g.digits.length

/-- How a time goes on after a part: it ends, with one octet passed over at most, or a fraction or
another part follows. -/
theorem afterPart?_cases {colons last : Bool} {s : List Nat} {next : Nat} {step : AfterPart}
    (h : afterPart? colons last s next = some step) :
    (s.length ≤ 1 ∧ step = .done (decide (s.headD next ≠ 0))) ∨
      (∃ mark : FractionMark, ∃ rest, (mark = .point ∨ mark = .comma) ∧ rest ≠ [] ∧
        s = asciiOctets mark.text ++ rest ∧ step = .fraction rest) ∨
      ∃ rest, rest ≠ [] ∧ (colons = false → 2 ≤ rest.length) ∧
        s = asciiOctets (markText colons ':') ++ rest ∧
        step = if last then .fraction rest else .part rest := by
  rw [afterPart?.eq_def] at h
  split at h
  · exact .inl ⟨Nat.zero_le 1, (Option.some.inj h).symm⟩
  · exact .inl ⟨le_rfl, (Option.some.inj h).symm⟩
  · rename_i b rest hrest
    dsimp only at h
    by_cases hcolon : (colons && decide (b = 58)) = true
    · rw [if_pos hcolon] at h
      obtain ⟨rfl, hb⟩ := Bool.and_eq_true_iff.1 hcolon
      obtain rfl := of_decide_eq_true hb
      exact .inr (.inr ⟨rest, hrest, nofun, rfl, (Option.some.inj h).symm⟩)
    rw [if_neg hcolon] at h
    by_cases hmark : (decide (b = 46) || decide (b = 44)) = true
    · rw [if_pos hmark] at h
      rcases Bool.or_eq_true_iff.1 hmark with hb | hb
      · obtain rfl := of_decide_eq_true hb
        exact .inr (.inl ⟨.point, rest, .inl rfl, hrest, rfl, (Option.some.inj h).symm⟩)
      · obtain rfl := of_decide_eq_true hb
        exact .inr (.inl ⟨.comma, rest, .inr rfl, hrest, rfl, (Option.some.inj h).symm⟩)
    · rw [if_neg hmark] at h
      cases colons with
      | false =>
        refine .inr (.inr ⟨b :: rest, List.cons_ne_nil _ _, fun _ => ?_, rfl,
          (Option.some.inj h).symm⟩)
        exact Nat.succ_le_succ (List.length_pos_iff.2 hrest)
      | true => exact absurd h nofun

/-- A time that ends after a part. -/
theorem endsAs_of_done {colons last : Bool} {s : List Nat} {next : Nat} {junk : Bool}
    (h : afterPart? colons last s next = some (.done junk)) (count : Nat) :
    EndsAs colons count s next junk none s := by
  rcases afterPart?_cases h with ⟨hlen, hstep⟩ | ⟨mark, rest, -, -, -, hstep⟩ |
    ⟨rest, -, -, -, hstep⟩
  · refine ⟨rfl, AfterPart.done.inj hstep, ?_, nofun, nofun⟩
    rcases Nat.le_one_iff_eq_zero_or_eq_one.1 hlen with h0 | h1
    · exact .inl (List.length_eq_zero_iff.1 h0)
    · exact .inr (.inl ⟨rfl, h1⟩)
  · exact absurd hstep nofun
  · cases last <;> exact absurd hstep nofun

/-- Another part follows after a colon, or directly. -/
theorem eq_of_afterPart?_part {colons last : Bool} {s rest : List Nat} {next : Nat}
    (h : afterPart? colons last s next = some (.part rest)) :
    s = asciiOctets (markText colons ':') ++ rest := by
  rcases afterPart?_cases h with ⟨-, hstep⟩ | ⟨mark, rest, -, -, -, hstep⟩ | ⟨rest, -, -, hs, hstep⟩
  · exact absurd hstep nofun
  · exact absurd hstep nofun
  · cases last with
    | false => rw [hs, AfterPart.part.inj hstep]
    | true => exact absurd hstep nofun

/-- No part follows the last one. -/
theorem afterPart?_last_ne_part (colons : Bool) (s : List Nat) (next : Nat) (rest : List Nat) :
    afterPart? colons true s next ≠ some (.part rest) := by
  intro h
  rcases afterPart?_cases h with ⟨-, hstep⟩ | ⟨mark, rest, -, -, -, hstep⟩ | ⟨rest, -, -, hs, hstep⟩
  · exact absurd hstep nofun
  · exact absurd hstep nofun
  · exact absurd hstep nofun

/-- A time that ends with a fraction.  Only after the last part does it go on like a part. -/
theorem exists_endsAs_of_fraction {colons last : Bool} {s rest : List Nat} {next micro : Nat}
    {junk : Bool} (h : afterPart? colons last s next = some (.fraction rest))
    (hf : fraction? rest next = some (micro, junk)) {count : Nat}
    (hcount : last = true → count = 2) :
    ∃ f passed, EndsAs colons count s next junk (some f) passed := by
  obtain ⟨ds, passed, hlen, hs', hjunk, hpasses⟩ := fraction?_eq_some hf
  -- the mark decides what the fraction fits
  have hends (mark : FractionMark) (hne : rest ≠ []) (hs : s = asciiOctets mark.text ++ rest)
      (hcolon : mark = .colon → colons = true ∧ count = 2)
      (hbare : mark = .bare → colons = false ∧ count = 2 ∧ 2 ≤ ds.length) :
      ∃ f passed, EndsAs colons count s next junk (some f) passed := by
    have hds : ds ≠ [] := by
      rintro rfl
      have hpos := List.length_pos_iff.2 hne
      rw [List.length_nil] at hlen
      omega
    refine ⟨⟨mark, ds, hds⟩, passed, ?_, hjunk, ?_, ?_, ?_⟩
    · rw [hs, hs', Option.elim_some, Fraction.text, asciiOctets_append, asciiOctets_digits,
        List.append_assoc]
    · exact hpasses.imp_right fun h => .inr ⟨_, rfl, h⟩
    · rintro g hg
      obtain rfl := Option.some.inj hg
      exact hcolon
    · rintro g hg
      obtain rfl := Option.some.inj hg
      exact hbare
  rcases afterPart?_cases h with ⟨-, hstep⟩ | ⟨mark, r, hmark, hne, hs, hstep⟩ |
    ⟨r, hne, htwo, hs, hstep⟩
  · cases hstep
  · obtain rfl := AfterPart.fraction.inj hstep
    refine hends mark hne hs ?_ ?_
    · rintro rfl
      simp at hmark
    · rintro rfl
      simp at hmark
  · cases last with
    | false => cases hstep
    | true =>
      obtain rfl := AfterPart.fraction.inj hstep
      cases colons with
      | false =>
        have hlong := htwo rfl
        exact hends .bare hne hs (by rintro ⟨⟩) fun _ => ⟨rfl, hcount rfl, by omega⟩
      | true => exact hends .colon hne hs (fun _ => ⟨rfl, hcount rfl⟩) (by rintro ⟨⟩)

/-- The parts that were read and what stands after them make up a time. -/
theorem EndsAs.exists_clockForm {colons : Bool} {later : List (Fin 100)} {s : List Nat}
    {next : Nat} {junk : Bool} {f : Option Fraction} {passed : List Nat}
    (h : EndsAs colons later.length s next junk f passed) (hour : Fin 100)
    (hlen : later.length ≤ 2) :
    ∃ (c : ClockForm) (passed : List Nat),
      asciiOctets (numberText 2 hour) ++ (asciiOctets (laterText colons later) ++ s) =
        asciiOctets c.text ++ passed ∧
      junk = decide (passed.headD next ≠ 0) ∧ PassesOctets c.fraction passed := by
  refine ⟨⟨hour, colons, later, f, hlen, h.colon_fits, h.bare_fits⟩, passed, ?_, h.junk_eq,
    h.passes⟩
  simp only [ClockForm.text, h.eq, asciiOctets_append, List.append_assoc]

/-- **A time that is read** is one that is written, and what is passed over after it. -/
theorem clock?_eq_some {s : List Nat} {next : Nat} {reading : ClockReading}
    (h : clock? s next = some reading) :
    ∃ (c : ClockForm) (passed : List Nat), s = asciiOctets c.text ++ passed ∧
      reading.junk = decide (passed.headD next ≠ 0) ∧ PassesOctets c.fraction passed := by
  obtain ⟨⟨hour, rest⟩, hread, hrest⟩ := Option.bind_eq_some_iff.1 h
  obtain ⟨hhour, hs⟩ := digits?_eq_some hread
  dsimp only at hrest
  generalize decide (rest.head? = some 58) = colons at hrest
  have hends (later : List (Fin 100)) {r : List Nat} {junk : Bool} {f : Option Fraction}
      {passed : List Nat} (he : EndsAs colons later.length r next junk f passed)
      (hlen : later.length ≤ 2) (hrest : rest = asciiOctets (laterText colons later) ++ r) :
      ∃ (c : ClockForm) (passed : List Nat), s = asciiOctets c.text ++ passed ∧
        junk = decide (passed.headD next ≠ 0) ∧ PassesOctets c.fraction passed := by
    rw [hs, hrest]
    exact he.exists_clockForm ⟨hour, hhour⟩ hlen
  obtain ⟨step, hstep, hfirst⟩ := Option.bind_eq_some_iff.1 hrest
  cases step with
  | done junk =>
    cases hfirst
    exact hends [] (endsAs_of_done hstep 0) (by simp) rfl
  | fraction r =>
    obtain ⟨⟨micro, junk⟩, hf, hjunk⟩ := Option.bind_eq_some_iff.1 hfirst
    cases hjunk
    obtain ⟨f, passed, he⟩ := exists_endsAs_of_fraction hstep hf nofun
    exact hends [] he (by simp) rfl
  | part r =>
    have hpart := eq_of_afterPart?_part hstep
    obtain ⟨⟨minute, r₁⟩, hread, hsecond⟩ := Option.bind_eq_some_iff.1 hfirst
    obtain ⟨hminute, rfl⟩ := digits?_eq_some hread
    obtain ⟨step, hstep, hsecond⟩ := Option.bind_eq_some_iff.1 hsecond
    have hlater : rest = asciiOctets (laterText colons [⟨minute, hminute⟩]) ++ r₁ := by
      rw [hpart]
      simp [laterText]
    cases step with
    | done junk =>
      cases hsecond
      exact hends [⟨minute, hminute⟩] (endsAs_of_done hstep 1) (by simp) hlater
    | fraction r =>
      obtain ⟨⟨micro, junk⟩, hf, hjunk⟩ := Option.bind_eq_some_iff.1 hsecond
      cases hjunk
      obtain ⟨f, passed, he⟩ := exists_endsAs_of_fraction hstep hf nofun
      exact hends [⟨minute, hminute⟩] he (by simp) hlater
    | part r =>
      have hpart : r₁ = asciiOctets (markText colons ':') ++ r := eq_of_afterPart?_part hstep
      obtain ⟨⟨second, r₂⟩, hread, hthird⟩ := Option.bind_eq_some_iff.1 hsecond
      obtain ⟨hlt, rfl⟩ := digits?_eq_some hread
      obtain ⟨step, hstep, hthird⟩ := Option.bind_eq_some_iff.1 hthird
      have hlater : rest =
          asciiOctets (laterText colons [⟨minute, hminute⟩, ⟨second, hlt⟩]) ++ r₂ := by
        rw [hlater, hpart]
        simp [laterText]
      cases step with
      | done junk =>
        cases hthird
        exact hends [⟨minute, hminute⟩, ⟨second, hlt⟩] (endsAs_of_done hstep 2) (by simp) hlater
      | fraction r =>
        obtain ⟨⟨micro, junk⟩, hf, hjunk⟩ := Option.bind_eq_some_iff.1 hthird
        cases hjunk
        obtain ⟨f, passed, he⟩ := exists_endsAs_of_fraction hstep hf fun _ => rfl
        exact hends [⟨minute, hminute⟩, ⟨second, hlt⟩] he (by simp) hlater
      | part r => exact absurd hstep (afterPart?_last_ne_part colons r₂ next r)

/-- An offset that is read is a time, after which only octets from a 0 on are passed over. -/
theorem offset?_eq_some {negative : Bool} {s : List Nat} {offset : Int}
    (h : offset? negative s = some offset) :
    ∃ (c : ClockForm) (passed : List Nat), s = asciiOctets c.text ++ passed ∧
      PassesOctets c.fraction passed ∧ passed.headD 0 = 0 := by
  obtain ⟨reading, hread, hoffset⟩ := Option.bind_eq_some_iff.1 h
  obtain ⟨c, passed, hs, hjunk, hpasses⟩ := clock?_eq_some hread
  refine ⟨c, passed, hs, hpasses, ?_⟩
  dsimp only at hoffset
  split_ifs at hoffset with hj
  all_goals
    rw [hjunk, decide_eq_true_eq, not_not] at hj
    exact hj

/-- What stands after a time: nothing, a `Z` and octets from a 0 on, or an offset. -/
inductive IsTail : List Nat → Prop
  | absent : IsTail []
  | zulu {more : List Nat} (h : more.headD 0 = 0) : IsTail ((zuluPoint false).val :: more)
  | offset (negative : Bool) (c : ClockForm) {passed : List Nat}
    (hp : PassesOctets c.fraction passed) (h : passed.headD 0 = 0) :
    IsTail ((signPoint negative).val :: (asciiOctets c.text ++ passed))

/-- Octets are cut before the first one that ends the time. -/
theorem exists_cut_of_endsClock (s : List Nat) :
    ∃ body rest, s = body ++ rest ∧ (∀ b ∈ body, endsClock b = false) ∧
      ∀ b ∈ rest.head?, endsClock b = true := by
  let inside (b : Nat) : Bool := !endsClock b
  refine ⟨s.takeWhile inside, s.dropWhile inside, List.takeWhile_append_dropWhile.symm, ?_, ?_⟩
  · intro b hb
    simpa [inside] using List.mem_takeWhile_imp hb
  · intro b hb
    have hnot := List.head?_dropWhile_not inside s
    rw [hb] at hnot
    simpa [inside] using hnot

/-- What ends the time and is no `Z` is a sign. -/
theorem exists_signPoint {b : Nat} (h : endsClock b = true) (hz : b ≠ 90) :
    ∃ negative, b = (signPoint negative).val := by
  simp only [endsClock, Bool.or_eq_true, decide_eq_true_eq] at h
  rcases h with (rfl | rfl) | rfl
  · exact ⟨false, rfl⟩
  · exact ⟨true, rfl⟩
  · exact absurd rfl hz

/-- **A time with an offset that is read**: the offset starts at the first sign or `Z`, and what
the time passes over stands before it. -/
theorem time?_eq_some {s : List Nat} {time : TimeOfDay} {offset : Int}
    (h : time? s = some (time, offset)) :
    ∃ (c : ClockForm) (passed tail : List Nat), s = asciiOctets c.text ++ (passed ++ tail) ∧
      PassesOctets c.fraction passed ∧ (∀ b ∈ passed, endsClock b = false) ∧ IsTail tail ∧
      (tail = [] → passed.headD 0 = 0) := by
  obtain ⟨body, tail, rfl, hbody, hends⟩ := exists_cut_of_endsClock s
  -- what was read before the tail is a time and what is passed over
  have hread {next : Nat} {reading : ClockReading} (hc : clock? body next = some reading)
      (htail : IsTail tail) (hnone : tail = [] → next = 0 ∧ reading.junk = false) :
      ∃ (c : ClockForm) (passed tail' : List Nat),
        body ++ tail = asciiOctets c.text ++ (passed ++ tail') ∧
        PassesOctets c.fraction passed ∧ (∀ b ∈ passed, endsClock b = false) ∧ IsTail tail' ∧
        (tail' = [] → passed.headD 0 = 0) := by
    obtain ⟨c, passed, rfl, hjunk, hpasses⟩ := clock?_eq_some hc
    refine ⟨c, passed, tail, List.append_assoc .., hpasses,
      fun b hb => hbody b (List.mem_append_right _ hb), htail, fun hnil => ?_⟩
    obtain ⟨rfl, hfalse⟩ := hnone hnil
    rw [hfalse] at hjunk
    exact not_not.1 (of_decide_eq_false hjunk.symm)
  simp only [time?, takeWhile_of_endsClock hbody tail hends, List.drop_left] at h
  split at h
  · obtain ⟨reading, hc, hrest⟩ := Option.bind_eq_some_iff.1 h
    split_ifs at hrest with hj
    · cases hrest
    · exact hread hc .absent fun _ => ⟨rfl, eq_false_of_ne_true hj⟩
  · obtain ⟨reading, hc, hrest⟩ := Option.bind_eq_some_iff.1 h
    split_ifs at hrest with hj
    · cases hrest
    · exact hread hc (.zulu (not_not.1 hj)) (by rintro ⟨⟩)
  · rename_i sign more hzulu
    obtain ⟨reading, hc, hrest⟩ := Option.bind_eq_some_iff.1 h
    obtain ⟨offset, ho, -⟩ := Option.bind_eq_some_iff.1 hrest
    obtain ⟨c, passed, rfl, hpasses, hzero⟩ := offset?_eq_some ho
    obtain ⟨negative, rfl⟩ := exists_signPoint (hends sign rfl) hzulu
    exact hread hc (.offset negative c hpasses hzero) (by rintro ⟨⟩)

/-! ### Dates -/

/-- A date of more than eight octets has a hyphen after the year. -/
theorem dateWidth?_le {s : List Nat} {width : Nat} (h : dateWidth? s = some width) :
    width ≤ 10 ∧ (s[4]? ≠ some 45 → width ≤ 8) := by
  rw [dateWidth?] at h
  dsimp only at h
  constructor
  · split_ifs at h
    all_goals
      obtain rfl := Option.some.inj h
      omega
  · intro hne
    have h4 : s.getD 4 0 ≠ 45 := by
      intro h0
      rw [List.getD_eq_getElem?_getD] at h0
      cases hs : s[4]? with
      | none => rw [hs] at h0; exact absurd h0 (by decide)
      | some b => exact hne (hs.trans (congrArg some (by rwa [hs] at h0)))
    rw [if_neg h4] at h
    split_ifs at h
    all_goals
      obtain rfl := Option.some.inj h
      omega

/-- A hyphen is stepped over when one is wanted. -/
theorem hyphen?_eq_some {wanted : Bool} {s rest : List Nat} (h : hyphen? wanted s = some rest) :
    s = asciiOctets (markText wanted '-') ++ rest := by
  cases wanted with
  | false => exact Option.some.inj h
  | true =>
    rw [hyphen?.eq_def, if_pos rfl] at h
    split at h
    · rw [Option.some.inj h]
      rfl
    · exact absurd h nofun

/-- **A date that is read** is one that is written, if it takes no more octets than it may. -/
theorem date?_eq_some {s : List Nat} {date : Date} (h : date? s = some date)
    (hlen : s.length ≤ 10) (hshort : s[4]? ≠ some 45 → s.length ≤ 8) :
    ∃ d : DateForm, s = asciiOctets d.text := by
  obtain ⟨⟨year, r₀⟩, hread, h₀⟩ := Option.bind_eq_some_iff.1 h
  obtain ⟨hyear, hs⟩ := digits?_eq_some hread
  have hfour : (asciiOctets (numberText 4 year)).length = 4 := by simp
  have hbound : decide (r₀.head? = some 45) = false → s.length ≤ 8 := by
    intro hno
    refine hshort fun h4 => of_decide_eq_false hno ?_
    rw [hs, List.getElem?_append_right hfour.le, hfour] at h4
    exact (List.head?_eq_getElem? ..).trans h4
  dsimp only at h₀
  generalize decide (r₀.head? = some 45) = separated at h₀ hbound
  obtain ⟨r₁, hhyphen, h₁⟩ := Option.bind_eq_some_iff.1 h₀
  rw [hyphen?_eq_some hhyphen] at hs
  have hmark : (asciiOctets (markText separated '-')).length = if separated then 1 else 0 := by
    cases separated <;> rfl
  split at h₁
  · rename_i r₂
    obtain ⟨⟨week, r₃⟩, hread, h₂⟩ := Option.bind_eq_some_iff.1 h₁
    obtain ⟨hweek, rfl⟩ := digits?_eq_some hread
    dsimp only at h₂
    split_ifs at h₂ with hempty
    · rw [List.isEmpty_iff.1 hempty] at hs
      refine ⟨.week separated ⟨year, hyear⟩ ⟨week, hweek⟩ none, ?_⟩
      rw [hs]
      simp only [DateForm.text, asciiOctets_append, asciiOctets_cons, Option.elim_none]
      rfl
    · obtain ⟨r₄, hhyphen, h₃⟩ := Option.bind_eq_some_iff.1 h₂
      obtain ⟨⟨day, extra⟩, hread, -⟩ := Option.bind_eq_some_iff.1 h₃
      obtain ⟨-, rfl⟩ := digits?_eq_some hread
      have hr₃ : r₃ = asciiOctets (markText separated '-') ++
          (asciiOctets (numberText 1 day) ++ extra) := hyphen?_eq_some hhyphen
      rw [hr₃] at hs
      obtain rfl : extra = [] := by
        have hlength := congrArg List.length hs
        simp only [List.length_append, List.length_cons, hmark, length_asciiOctets,
          length_numberText] at hlength
        refine List.length_eq_zero_iff.1 ?_
        cases separated with
        | false => have := hbound rfl; simp at hlength; omega
        | true => simp at hlength; omega
      refine ⟨.week separated ⟨year, hyear⟩ ⟨week, hweek⟩ (some (Fin.ofNat 10 day)), ?_⟩
      rw [hs, List.append_nil]
      simp only [DateForm.text, asciiOctets_append, asciiOctets_cons, Option.elim_some]
      rfl
  · obtain ⟨⟨month, r₂⟩, hread, h₂⟩ := Option.bind_eq_some_iff.1 h₁
    obtain ⟨hmonth, rfl⟩ := digits?_eq_some hread
    obtain ⟨r₃, hhyphen, h₃⟩ := Option.bind_eq_some_iff.1 h₂
    obtain ⟨⟨day, extra⟩, hread, -⟩ := Option.bind_eq_some_iff.1 h₃
    obtain ⟨hday, rfl⟩ := digits?_eq_some hread
    have hr₂ : r₂ = asciiOctets (markText separated '-') ++
        (asciiOctets (numberText 2 day) ++ extra) := hyphen?_eq_some hhyphen
    rw [hr₂] at hs
    obtain rfl : extra = [] := by
      have hlength := congrArg List.length hs
      simp only [List.length_append, hmark, length_asciiOctets, length_numberText] at hlength
      refine List.length_eq_zero_iff.1 ?_
      cases separated with
      | false => have := hbound rfl; simp at hlength; omega
      | true => simp at hlength; omega
    refine ⟨.calendar separated ⟨year, hyear⟩ ⟨month, hmonth⟩ ⟨day, hday⟩, ?_⟩
    rw [hs]
    simp [DateForm.text]

/-- What is read is a date, and possibly a separator and a time with its offset. -/
theorem instant?_eq_some {s : List Nat} {micros : Int} (h : instant? s = some micros) :
    ∃ d : DateForm, s = asciiOctets d.text ∨ ∃ b rest time offset,
      s = asciiOctets d.text ++ b :: rest ∧
        time? ((b :: rest).drop (characterWidth b)) = some (time, offset) := by
  rw [instant?] at h
  split_ifs at h
  · cases h
  obtain ⟨width, hwidth, h₁⟩ := Option.bind_eq_some_iff.1 h
  obtain ⟨date, hdate, h₂⟩ := Option.bind_eq_some_iff.1 h₁
  obtain ⟨hle, hle'⟩ := dateWidth?_le hwidth
  have hlen : (s.take width).length ≤ width := List.length_take_le _ _
  obtain ⟨d, hd⟩ := date?_eq_some hdate (hlen.trans hle) fun hne => by
    refine hlen.trans (Nat.le_of_not_lt fun hlt => hne ?_)
    rw [List.getElem?_take_of_lt (by omega)]
    exact not_not.1 fun h4 => hlt.not_ge (hle' h4)
  have hs := List.take_append_drop width s
  rw [hd] at hs
  refine ⟨d, ?_⟩
  dsimp only at h₂
  split at h₂
  · rename_i hnil
    rw [hnil, List.append_nil] at hs
    exact .inl hs.symm
  · rename_i b rest hcons
    obtain ⟨⟨time, offset⟩, ht, -⟩ := Option.bind_eq_some_iff.1 h₂
    rw [hcons] at hs
    exact .inr ⟨b, rest, time, offset, hs.symm, ht⟩

end Timestamp
end MachineCatalog
