/-
# JSON numbers are read back

A number is read up to a character that cannot go on with it (`Json.EndsNumber`): its
whole part, its places if a point follows, its exponent if one follows.  So digits alone
are an integer (`Json.number?_whole`), and anything else is the decimal that it writes
(`Json.number?_places`, `Json.number?_scaled`).

An integer that can be shown reads back (`Json.readsNumber_signedDecimal`).  A float is
laid out from the digits of its shortest decimal, in one of four ways, and each of them
writes that decimal again (`Json.number?_layout`); so every finite float reads back, minus
zero too (`Json.readsNumber_float`).
-/

import MachineCatalog.Json.Reader
import MachineCatalog.Json.Writer
import MachineCatalog.Proofs.Number.Decimal
import MachineCatalog.Proofs.Numeral
import Mathlib.Data.List.TakeWhile

namespace MachineCatalog

open Text

/-! ### Digits -/

namespace Text

theorem isAsciiDigit_of_mem_toDigits {n : Nat} {c : Char} (h : c ∈ Nat.toDigits 10 n) :
    isAsciiDigit c = true :=
  Nat.isDigit_of_mem_toDigits (by decide) (by decide) h

/-- The digits of a positive number start with no zero. -/
theorem exists_toDigits_eq_cons {n : Nat} (h : 0 < n) :
    ∃ c cs, Nat.toDigits 10 n = c :: cs ∧ c ≠ '0' := by
  induction n using Nat.strong_induction_on with
  | _ n ih =>
    rcases Nat.lt_or_ge n 10 with hn | hn
    · have hc : ∀ d : Fin 10, 0 < d.val → Nat.digitChar d ≠ '0' := by decide
      exact ⟨n.digitChar, [], Nat.toDigits_of_lt_base hn, hc ⟨n, hn⟩ h⟩
    · obtain ⟨c, cs, hcs, hc⟩ := ih (n / 10) (by omega) (by omega)
      refine ⟨c, cs ++ [(n % 10).digitChar], ?_, hc⟩
      rw [Nat.toDigits_of_base_le (by decide) hn, hcs]
      rfl

end Text

namespace Json

/-! ### The parts of a number -/

/-- Digits, and at least one. -/
def IsDigits (ds : List Char) : Prop := ds ≠ [] ∧ ∀ c ∈ ds, isAsciiDigit c = true

/-- Digits that can be a whole part: a single zero, or digits that start with none. -/
def IsWhole (ds : List Char) : Prop := ds = ['0'] ∨ IsDigits ds ∧ ds.head? ≠ some '0'

/-- The number that digits write. -/
def valueOf (ds : List Char) : Nat := Nat.ofDigitChars 10 ds 0

/-- No digit comes first. -/
def EndsDigits (rest : List Char) : Prop := ∀ c ∈ rest.head?, isAsciiDigit c = false

/-- What comes first cannot go on with a number. -/
def EndsNumber (rest : List Char) : Prop :=
  ∀ c ∈ rest.head?, isAsciiDigit c = false ∧ c ≠ '.' ∧ c ≠ 'e' ∧ c ≠ 'E'

theorem EndsNumber.endsDigits {rest : List Char} (h : EndsNumber rest) : EndsDigits rest :=
  fun c hc => (h c hc).1

theorem isDigits_zero : IsDigits ['0'] :=
  ⟨List.cons_ne_nil _ _, List.forall_mem_singleton.2 rfl⟩

theorem takeWhile_digits {ds rest : List Char} (h : ∀ c ∈ ds, isAsciiDigit c = true)
    (hr : EndsDigits rest) : (ds ++ rest).takeWhile isAsciiDigit = ds := by
  rw [List.takeWhile_append_of_pos h]
  cases rest with
  | nil => simp
  | cons c rest => simp [hr c rfl]

theorem dropWhile_digits {ds rest : List Char} (h : ∀ c ∈ ds, isAsciiDigit c = true)
    (hr : EndsDigits rest) : (ds ++ rest).dropWhile isAsciiDigit = rest := by
  rw [List.dropWhile_append_of_pos h]
  cases rest with
  | nil => simp
  | cons c rest => simp [hr c rfl]

theorem wholePart?_append {ds rest : List Char} (h : IsWhole ds) (hr : EndsDigits rest) :
    wholePart? (ds ++ rest) = some (ds, rest) := by
  rcases h with rfl | ⟨⟨hne, hall⟩, hhead⟩
  · rfl
  · cases ds with
    | nil => exact absurd rfl hne
    | cons c ds =>
      rw [List.forall_mem_cons] at hall
      have hc : c ≠ '0' := fun he => hhead (he ▸ rfl)
      rw [List.cons_append, wholePart?, if_pos hall.1, takeWhile_digits hall.2 hr,
        dropWhile_digits hall.2 hr]
      exact hc

theorem fraction_of_ends {rest : List Char} (h : ∀ c ∈ rest.head?, c ≠ '.') :
    fraction rest = ([], rest) := by
  cases rest with
  | nil => rfl
  | cons c rest =>
    rw [fraction]
    exact fun more he => h c rfl (List.cons.inj he).1

theorem fraction_point {ps rest : List Char} (h : IsDigits ps) (hr : EndsDigits rest) :
    fraction ('.' :: (ps ++ rest)) = (ps, rest) := by
  rw [fraction, takeWhile_digits h.2 hr, dropWhile_digits h.2 hr]
  cases ps with
  | nil => exact absurd rfl h.1
  | cons p ps => rfl

theorem exponent?_of_ends {rest : List Char} (h : ∀ c ∈ rest.head?, c ≠ 'e' ∧ c ≠ 'E') :
    exponent? rest = none := by
  cases rest with
  | nil => rfl
  | cons c rest => simp [exponent?, h c rfl]

/-- The sign of an exponent, which is always written. -/
def exponentSign (negative : Bool) : Char := if negative then '-' else '+'

theorem exponent?_mark {negative : Bool} {ds rest : List Char} (h : IsDigits ds)
    (hr : EndsDigits rest) :
    exponent? ('e' :: exponentSign negative :: (ds ++ rest)) =
      some (withSign negative (valueOf ds), rest) := by
  have hsplit : splitSign (exponentSign negative :: (ds ++ rest)) = (negative, ds ++ rest) := by
    cases negative <;> rfl
  rw [exponent?, hsplit, if_pos (by decide), valueOf]
  dsimp only
  rw [takeWhile_digits h.2 hr, dropWhile_digits h.2 hr]
  cases ds with
  | nil => exact absurd rfl h.1
  | cons d ds => rfl

/-! ### Numbers -/

section Number

variable (negative : Bool) {whole places rest : List Char}

/-- Digits alone are an integer. -/
theorem number?_whole (hw : IsWhole whole) (hl : whole.length ≤ decimalDigitLimit)
    (hr : EndsNumber rest) :
    number? negative (whole ++ rest) =
      some (.int (withSign negative (valueOf whole)), rest) := by
  have hf := fraction_of_ends fun c hc => (hr c hc).2.1
  have he := exponent?_of_ends fun c hc => (hr c hc).2.2
  simp [number?, wholePart?_append hw hr.endsDigits, hf, he, Nat.not_lt.2 hl, valueOf]

/-- With places after a point they are a decimal. -/
theorem number?_places (hw : IsWhole whole) (hp : IsDigits places) (hr : EndsNumber rest) :
    number? negative (whole ++ '.' :: (places ++ rest)) =
      some (.float (.ofDecimal negative (valueOf (whole ++ places))
        (-places.length)), rest) := by
  have hpoint : EndsDigits ('.' :: (places ++ rest)) := by
    rintro c hc
    obtain rfl := Option.some.inj hc
    rfl
  have he := exponent?_of_ends fun c hc => (hr c hc).2.2
  simp [number?, wholePart?_append hw hpoint, fraction_point hp hr.endsDigits, he, hp.1, valueOf]

/-- The places of a number, after a point if there are any. -/
def pointed (places : List Char) : List Char := if places.isEmpty then [] else '.' :: places

/-- An exponent moves the point. -/
theorem number?_scaled (minus : Bool) {ds : List Char} (hw : IsWhole whole)
    (hp : ∀ c ∈ places, isAsciiDigit c = true) (hd : IsDigits ds) (hr : EndsNumber rest) :
    number? negative (whole ++ (pointed places ++ 'e' :: exponentSign minus :: (ds ++ rest))) =
      some (.float (.ofDecimal negative (valueOf (whole ++ places))
        (withSign minus (valueOf ds) - places.length)), rest) := by
  have hmark : EndsDigits ('e' :: exponentSign minus :: (ds ++ rest)) := by
    rintro c hc
    obtain rfl := Option.some.inj hc
    rfl
  have hends : EndsDigits (pointed places ++ 'e' :: exponentSign minus :: (ds ++ rest)) := by
    rw [pointed]
    split_ifs
    · exact hmark
    · rintro c hc
      obtain rfl := Option.some.inj hc
      rfl
  have hf : fraction (pointed places ++ 'e' :: exponentSign minus :: (ds ++ rest)) =
      (places, 'e' :: exponentSign minus :: (ds ++ rest)) := by
    rw [pointed]
    split_ifs with hnil
    · rw [List.isEmpty_iff.1 hnil]
      exact fraction_of_ends (by simp)
    · exact fraction_point ⟨fun h => hnil (List.isEmpty_iff.2 h), hp⟩ hmark
  simp [number?, wholePart?_append hw hends, hf, exponent?_mark hd hr.endsDigits, valueOf]

end Number

/-! ### Layouts of floats -/

theorem valueOf_toDigits (n : Nat) : valueOf (Nat.toDigits 10 n) = n :=
  Nat.ofDigitChars_toDigits (by decide) (by decide)

theorem valueOf_append_zeros (ds : List Char) (k : Nat) :
    valueOf (ds ++ List.replicate k '0') = valueOf ds * 10 ^ k := by
  rw [valueOf, Nat.ofDigitChars_append, Nat.ofDigitChars_replicate_zero, Nat.mul_comm, valueOf]

theorem valueOf_zeros_append (k : Nat) (ds : List Char) :
    valueOf (List.replicate k '0' ++ ds) = valueOf ds := by
  rw [valueOf, Nat.ofDigitChars_append, Nat.ofDigitChars_replicate_zero, Nat.mul_zero, valueOf]

theorem isAsciiDigit_of_mem_zeros {k : Nat} {c : Char} (h : c ∈ List.replicate k '0') :
    isAsciiDigit c = true := by
  rw [List.eq_of_mem_replicate h]
  decide

theorem isDigits_paddedDigits (w n : Nat) : IsDigits (paddedDigits 10 w n) := by
  refine ⟨List.append_ne_nil_of_right_ne_nil _ Nat.toDigits_ne_nil, fun c hc => ?_⟩
  rcases List.mem_append.1 hc with hc | hc
  · exact isAsciiDigit_of_mem_zeros hc
  · exact isAsciiDigit_of_mem_toDigits hc

theorem valueOf_paddedDigits (w n : Nat) : valueOf (paddedDigits 10 w n) = n := by
  rw [paddedDigits, valueOf_zeros_append, valueOf_toDigits]

theorem ofDecimal_mul_pow {negative : Bool} {n : Nat} (hn : 0 < n) (k : Nat) (e : Int) :
    Binary64.ofDecimal negative (n * 10 ^ k) e = .ofDecimal negative n (e + k) := by
  rw [Binary64.ofDecimal_eq, Binary64.ofDecimal_eq, Binary64.decimalRank_mul_pow hn]

section Layout

variable (negative : Bool) {ds rest : List Char}

/-- The digits stand behind the point, after some zeros. -/
theorem number?_below (hd : IsDigits ds) (hr : EndsNumber rest) (k : Nat) :
    number? negative ('0' :: '.' :: List.replicate k '0' ++ ds ++ rest) =
      some (.float (.ofDecimal negative (valueOf ds) (-k - ds.length)), rest) := by
  have hp : IsDigits (List.replicate k '0' ++ ds) := by
    refine ⟨List.append_ne_nil_of_right_ne_nil _ hd.1, fun c hc => ?_⟩
    rcases List.mem_append.1 hc with hc | hc
    · exact isAsciiDigit_of_mem_zeros hc
    · exact hd.2 c hc
  have hv : valueOf (['0'] ++ (List.replicate k '0' ++ ds)) = valueOf ds := by
    rw [← List.append_assoc]
    exact valueOf_zeros_append (k + 1) ds
  have hl : (-((List.replicate k '0' ++ ds).length : Int)) = -k - ds.length := by
    rw [List.length_append, List.length_replicate]
    omega
  have h := number?_places negative (.inl rfl) hp hr
  rw [hv, hl] at h
  simpa using h

/-- The digits stand before the point, before some zeros. -/
theorem number?_above (hd : IsDigits ds) (hh : ds.head? ≠ some '0') (hv : 0 < valueOf ds)
    (hr : EndsNumber rest) (k : Nat) :
    number? negative (ds ++ List.replicate k '0' ++ ['.', '0'] ++ rest) =
      some (.float (.ofDecimal negative (valueOf ds) k), rest) := by
  have hw : IsWhole (ds ++ List.replicate k '0') := by
    refine .inr ⟨⟨List.append_ne_nil_of_left_ne_nil hd.1 _, fun c hc => ?_⟩, ?_⟩
    · rcases List.mem_append.1 hc with hc | hc
      · exact hd.2 c hc
      · exact isAsciiDigit_of_mem_zeros hc
    · rwa [List.head?_append_of_ne_nil _ hd.1]
  have hzeros : valueOf (ds ++ List.replicate k '0' ++ ['0']) = valueOf ds * 10 ^ (k + 1) := by
    rw [← valueOf_append_zeros, List.replicate_succ', List.append_assoc]
  have hexp : -(([('0' : Char)].length : Nat) : Int) + ((k + 1 : Nat) : Int) = k := by
    simp only [List.length_singleton]
    omega
  have h := number?_places negative hw isDigits_zero hr
  rw [hzeros, ofDecimal_mul_pow hv, hexp] at h
  simpa using h

/-- The point stands among the digits. -/
theorem number?_between (hd : IsDigits ds) (hh : ds.head? ≠ some '0') (hr : EndsNumber rest)
    {k : Nat} (hk : 0 < k) (hlt : k < ds.length) :
    number? negative (ds.take k ++ '.' :: ds.drop k ++ rest) =
      some (.float (.ofDecimal negative (valueOf ds) (k - ds.length)), rest) := by
  have hw : IsWhole (ds.take k) := by
    refine .inr ⟨⟨?_, fun c hc => hd.2 c (List.mem_of_mem_take hc)⟩, ?_⟩
    · rw [Ne, List.take_eq_nil_iff, not_or]
      exact ⟨hk.ne', hd.1⟩
    · rwa [List.head?_take, if_neg hk.ne']
  have hp : IsDigits (ds.drop k) := by
    refine ⟨?_, fun c hc => hd.2 c (List.mem_of_mem_drop hc)⟩
    rw [Ne, List.drop_eq_nil_iff]
    omega
  have hl : (-((ds.drop k).length : Int)) = k - ds.length := by
    rw [List.length_drop]
    omega
  have h := number?_places negative hw hp hr
  rw [List.take_append_drop, hl] at h
  simpa using h

/-- One digit stands before the point, and an exponent follows. -/
theorem number?_exponent {d : Char} (hd : IsDigits (d :: ds)) (hh : d ≠ '0')
    (hr : EndsNumber rest) (e : Int) :
    number? negative (d :: (pointed ds ++ 'e' :: exponentSign (decide (e < 0)) ::
        (paddedDigits 10 2 e.natAbs ++ rest))) =
      some (.float (.ofDecimal negative (valueOf (d :: ds)) (e - ds.length)), rest) := by
  have hall := List.forall_mem_cons.1 hd.2
  have hw : IsWhole [d] := by
    refine .inr ⟨⟨List.cons_ne_nil _ _, by simpa using hall.1⟩, by simpa using hh⟩
  have he : withSign (decide (e < 0)) (valueOf (paddedDigits 10 2 e.natAbs)) = e := by
    rw [valueOf_paddedDigits, withSign]
    split_ifs with hneg
    · have := of_decide_eq_true hneg
      omega
    · have := of_decide_eq_false (Bool.eq_false_iff.2 hneg)
      omega
  have h := number?_scaled negative (decide (e < 0)) hw hall.2
    (isDigits_paddedDigits 2 e.natAbs) hr
  rw [he] at h
  exact h

/-- **Every layout writes its digits with the point in its place.** -/
theorem number?_layout (hd : IsDigits ds) (hh : ds.head? ≠ some '0') (hv : 0 < valueOf ds)
    (hr : EndsNumber rest) (point : Int) :
    number? negative (Binary64.layout ds point ++ rest) =
      some (.float (.ofDecimal negative (valueOf ds) (point - ds.length)), rest) := by
  unfold Binary64.layout
  split
  · split
    · rw [number?_below negative hd hr]
      congr 4
      omega
    · dsimp only
      split
      · rw [number?_above negative hd hh hv hr]
        congr 4
        omega
      · rw [number?_between negative hd hh hr (by omega) (by omega)]
        congr 4
        omega
  · cases ds with
    | nil => exact absurd rfl hd.1
    | cons d ds =>
      have hd0 : d ≠ '0' := fun he => hh (he ▸ rfl)
      have hexp := number?_exponent negative hd hd0 hr (point - 1)
      have hlen : point - 1 - (ds.length : Int) = point - ((d :: ds).length : Int) := by
        rw [List.length_cons]
        omega
      rw [hlen, exponentSign] at hexp
      simp only [decide_eq_true_eq] at hexp
      rw [← hexp]
      cases ds <;> simp [pointed]

end Layout

/-! ### Texts of numbers -/

/-- The text of a number, which is read with anything after it that ends it. -/
def ReadsNumber (t : List Char) (v : Value) : Prop :=
  ∃ negative body, t = (if negative then '-' :: body else body) ∧
    ∀ rest, EndsNumber rest → number? negative (body ++ rest) = some (v, rest)

theorem endsNumber_nil : EndsNumber [] := nofun

/-- Numbers start with a digit. -/
theorem exists_digit_of_number? {negative : Bool} {cs rest : List Char} {v : Value}
    (h : number? negative cs = some (v, rest)) :
    ∃ c more, cs = c :: more ∧ isAsciiDigit c = true := by
  obtain ⟨⟨whole, more⟩, hw, -⟩ := Option.bind_eq_some_iff.1 h
  cases cs with
  | nil => exact absurd hw nofun
  | cons c cs =>
    refine ⟨c, cs, rfl, ?_⟩
    by_cases hc : c = '0'
    · rw [hc]
      decide
    · rw [wholePart?] at hw
      · split_ifs at hw with hdigit
        exact hdigit
      · exact hc

/-- **An integer that can be shown reads back.** -/
theorem readsNumber_signedDecimal {n : Int} (h : Value.isLongInteger n = false) :
    ReadsNumber (signedDecimal n).chars (.int n) := by
  have hw : IsWhole (Nat.toDigits 10 n.natAbs) := by
    rcases Nat.eq_zero_or_pos n.natAbs with h0 | hpos
    · rw [h0]
      exact .inl rfl
    · obtain ⟨c, cs, hcs, hc⟩ := exists_toDigits_eq_cons hpos
      refine .inr ⟨⟨Nat.toDigits_ne_nil, fun c => isAsciiDigit_of_mem_toDigits⟩, ?_⟩
      rw [hcs]
      exact fun he => hc (Option.some.inj he)
  have hl : (Nat.toDigits 10 n.natAbs).length ≤ decimalDigitLimit :=
    (Nat.length_toDigits_le_iff (by decide) (by decide)).2 (Numeral.isLongInteger_eq_false_iff.1 h)
  have hv : withSign (decide (n < 0)) (valueOf (Nat.toDigits 10 n.natAbs)) = n := by
    rw [valueOf_toDigits, withSign]
    simp only [decide_eq_true_eq]
    split_ifs <;> omega
  refine ⟨decide (n < 0), Nat.toDigits 10 n.natAbs, ?_, fun rest hr => ?_⟩
  · rw [signedDecimal, decimal]
    simp only [decide_eq_true_eq]
    split_ifs
    · rw [chars_append, chars_ofChars]
      rfl
    · rw [chars_ofChars]
  · rw [number?_whole _ hw hl hr, hv]

/-- The digits that are laid out: those of the decimal without zeros at the end. -/
theorem exists_normal {d : Binary64.Decimal} (h : 0 < d.digits) :
    ∃ ds point, d.normal = (ds, point) ∧ IsDigits ds ∧ ds.head? ≠ some '0' ∧ 0 < valueOf ds ∧
      ∀ negative, Binary64.ofDecimal negative (valueOf ds) (point - ds.length) =
        .ofDecimal negative d.digits d.exponent := by
  obtain ⟨c, cs, hcs, hc⟩ := exists_toDigits_eq_cons h
  generalize htrimmed : ((Nat.toDigits 10 d.digits).reverse.dropWhile (· = '0')).reverse = ds
  obtain ⟨z, hz⟩ : ∃ z, Nat.toDigits 10 d.digits = ds ++ List.replicate z '0' := by
    refine ⟨((Nat.toDigits 10 d.digits).reverse.takeWhile (· = '0')).length, ?_⟩
    have hzeros : (Nat.toDigits 10 d.digits).reverse.takeWhile (· = '0') =
        List.replicate ((Nat.toDigits 10 d.digits).reverse.takeWhile (· = '0')).length '0' :=
      List.eq_replicate_of_mem fun x hx => by simpa using List.mem_takeWhile_imp hx
    rw [← htrimmed, ← List.reverse_replicate, ← hzeros, ← List.reverse_append,
      List.takeWhile_append_dropWhile, List.reverse_reverse]
  have hne : ds ≠ [] := by
    rintro rfl
    rw [hcs, List.nil_append] at hz
    exact hc (List.eq_of_mem_replicate (hz ▸ List.mem_cons_self))
  have hvalue : d.digits = valueOf ds * 10 ^ z := by
    rw [← valueOf_append_zeros, ← hz, valueOf_toDigits]
  have hpos : 0 < valueOf ds := Nat.pos_of_ne_zero fun h0 => by simp [h0, hvalue] at h
  refine ⟨ds, (Nat.toDigits 10 d.digits).length + d.exponent, by rw [← htrimmed]; rfl,
    ⟨hne, fun x hx => ?_⟩, ?_, hpos, fun negative => ?_⟩
  · refine isAsciiDigit_of_mem_toDigits (n := d.digits) ?_
    rw [hz]
    exact List.mem_append_left _ hx
  · rw [← List.head?_append_of_ne_nil _ hne, ← hz, hcs]
    exact fun he => hc (Option.some.inj he)
  · rw [hz, List.length_append, List.length_replicate, hvalue, ofDecimal_mul_pow hpos]
    congr 1
    omega

/-- A finite float without its sign. -/
def unsigned (rank : Nat) : List Char :=
  if rank = 0 then ['0', '.', '0']
  else Binary64.layout (Binary64.shortest rank).normal.1 (Binary64.shortest rank).normal.2

theorem chars_floatText (negative : Bool) {rank : Fin (Binary64.infinityRank + 1)}
    (h : rank.val < Binary64.infinityRank) :
    (floatText (.signed negative rank)).chars =
      if negative then '-' :: unsigned rank.val else unsigned rank.val := by
  simp only [floatText, if_neg h.ne, Binary64.text, chars_ofChars, unsigned]

theorem number?_unsigned (negative : Bool) {rank : Nat} (h : rank < Binary64.infinityRank)
    {rest : List Char} (hr : EndsNumber rest) :
    number? negative (unsigned rank ++ rest) = some (.float (.ofRank negative rank), rest) := by
  rw [unsigned]
  split_ifs with h0
  · have hzero := number?_places negative (.inl rfl) isDigits_zero hr
    rw [Binary64.ofDecimal_eq, show valueOf (['0'] ++ ['0']) = 0 from rfl,
      Binary64.decimalRank_zero] at hzero
    rw [h0]
    exact hzero
  · have hpos := Nat.pos_of_ne_zero h0
    have hshort := Binary64.decimalRank_shortest hpos h
    have hdigits : 0 < (Binary64.shortest rank).digits := by
      refine Nat.pos_of_ne_zero fun hd => ?_
      rw [hd, Binary64.decimalRank_zero] at hshort
      omega
    obtain ⟨ds, point, hn, hd, hh, hv, hof⟩ := exists_normal hdigits
    rw [hn, number?_layout negative hd hh hv hr, hof, Binary64.ofDecimal_eq, hshort]

/-- **A finite float reads back**, with its sign when it is zero too. -/
theorem readsNumber_float (negative : Bool) {rank : Fin (Binary64.infinityRank + 1)}
    (h : rank.val < Binary64.infinityRank) :
    ReadsNumber (floatText (.signed negative rank)).chars (.float (.signed negative rank)) := by
  have hrank : Binary64.ofRank negative rank.val = .signed negative rank := by
    rw [Binary64.ofRank]
    congr
    omega
  refine ⟨negative, unsigned rank.val, chars_floatText negative h, fun rest hr => ?_⟩
  rw [number?_unsigned negative h hr, hrank]

/-! ### Numbers among values -/

theorem value_of_digit {c : Char} (h : isAsciiDigit c = true) (depth fuel : Nat)
    (cs : List Char) : value depth (fuel + 1) (c :: cs) = required (number? false (c :: cs)) := by
  rw [value]
  -- a digit begins no other value
  all_goals
    intros
    rename_i he
    obtain rfl := (List.cons.inj he).1
    exact absurd h (by decide)

theorem value_of_minus {c : Char} (h : isAsciiDigit c = true) (depth fuel : Nat)
    (cs : List Char) :
    value depth (fuel + 1) ('-' :: c :: cs) = required (number? true (c :: cs)) := by
  rw [value]
  intro rest he
  obtain rfl := (List.cons.inj he).1
  exact absurd h (by decide)

/-- The text of a number is read as a value. -/
theorem ReadsNumber.value_eq {t rest : List Char} {v : Value} (h : ReadsNumber t v)
    (hr : EndsNumber rest) (depth fuel : Nat) :
    value depth (fuel + 1) (t ++ rest) = .ok (v, rest) := by
  obtain ⟨negative, body, rfl, hbody⟩ := h
  have hread := hbody rest hr
  obtain ⟨c, more, hc, hdigit⟩ := exists_digit_of_number? hread
  cases negative with
  | false =>
    rw [if_neg Bool.false_ne_true, hc, value_of_digit hdigit, ← hc, hread]
    rfl
  | true =>
    rw [if_pos rfl, List.cons_append, hc, value_of_minus hdigit, ← hc, hread]
    rfl

/-- It starts with a digit or with the sign. -/
theorem ReadsNumber.exists_cons {t : List Char} {v : Value} (h : ReadsNumber t v) :
    ∃ c more, t = c :: more ∧ (isAsciiDigit c = true ∨ c = '-') := by
  obtain ⟨negative, body, rfl, hbody⟩ := h
  cases negative with
  | true => exact ⟨'-', body, rfl, .inr rfl⟩
  | false =>
    obtain ⟨c, more, hc, hdigit⟩ := exists_digit_of_number? (hbody [] endsNumber_nil)
    rw [List.append_nil] at hc
    exact ⟨c, more, hc, .inl hdigit⟩

end Json
end MachineCatalog
