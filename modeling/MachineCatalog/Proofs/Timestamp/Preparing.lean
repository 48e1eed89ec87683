/-
# Texts that are prepared for reading

Before a text is read, a `Z` at its end becomes an offset (`zuluToOffset_zulu`), and the first
fraction after `Thh:mm:ss.` gets six digits (`sixDigitFraction_clockText`).  Neither changes what
the text says: only six digits of a fraction count (`exists_sixDigitFraction_clockText`), and
three of them make its whole milliseconds (`fractionMicros_div`).  A text that is ASCII then is
read octet by octet (`millis?_of_ascii`).
-/

import MachineCatalog.Proofs.Numeral
import MachineCatalog.Proofs.Timestamp.Reading

namespace MachineCatalog
namespace Timestamp

open Text

/-! ### Fractions -/

/-- The first digits of a fraction, with zeros where it has none. -/
def firstPlaces (n : Nat) (ds : List (Fin 10)) : List (Fin 10) :=
  (ds ++ List.replicate n zeroDigit).take n

theorem firstPlaces_eq (n : Nat) (ds : List (Fin 10)) :
    firstPlaces n ds = ds.take n ++ List.replicate (n - ds.length) zeroDigit := by
  rw [firstPlaces, List.take_append, List.take_replicate, Nat.min_eq_left (Nat.sub_le ..)]

@[simp] theorem length_firstPlaces (n : Nat) (ds : List (Fin 10)) :
    (firstPlaces n ds).length = n := by
  rw [firstPlaces_eq, List.length_append, List.length_take, List.length_replicate]
  omega

/-- The number that the first digits of a fraction write. -/
def firstValue (n : Nat) (ds : List (Fin 10)) : Nat :=
  ofDigitValues 10 ((firstPlaces n ds).map Fin.val)

theorem firstValue_lt (n : Nat) (ds : List (Fin 10)) : firstValue n ds < 10 ^ n := by
  have h := ofDigitValues_map_val_lt (firstPlaces n ds)
  rwa [length_firstPlaces] at h

/-- The microseconds of a fraction are its first six digits. -/
theorem fractionMicros_eq (ds : List (Fin 10)) : fractionMicros ds = firstValue 6 ds := by
  rw [fractionMicros, firstValue, firstPlaces_eq, List.map_append, List.map_replicate,
    ofDigitValues_append, val_zeroDigit, ofDigitValues_replicate_zero, List.length_replicate,
    Nat.add_zero, show 6 - min 6 ds.length = 6 - ds.length by omega]

theorem firstPlaces_firstPlaces (n : Nat) (ds : List (Fin 10)) :
    firstPlaces n (firstPlaces n ds) = firstPlaces n ds := by
  conv_lhs => rw [firstPlaces]
  rw [List.take_left' (length_firstPlaces n ds)]

theorem fractionMicros_firstPlaces (ds : List (Fin 10)) :
    fractionMicros (firstPlaces 6 ds) = fractionMicros ds := by
  rw [fractionMicros_eq, fractionMicros_eq, firstValue, firstValue, firstPlaces_firstPlaces]

theorem fractionMicros_lt (ds : List (Fin 10)) : fractionMicros ds < 10 ^ 6 := by
  rw [fractionMicros_eq]
  exact firstValue_lt 6 ds

/-- **The whole milliseconds of a fraction are its first three digits.** -/
theorem fractionMicros_div (ds : List (Fin 10)) : fractionMicros ds / 1000 = firstValue 3 ds := by
  have hthree : firstPlaces 3 ds = (firstPlaces 6 ds).take 3 := by
    rw [firstPlaces_eq, firstPlaces_eq, List.take_append, List.take_take, List.take_replicate,
      List.length_take]
    congr 2
    omega
  have hsplit := congrArg (List.map Fin.val) (List.take_append_drop 3 (firstPlaces 6 ds))
  have hrest := ofDigitValues_map_val_lt ((firstPlaces 6 ds).drop 3)
  rw [List.map_append] at hsplit
  simp only [List.length_drop, length_firstPlaces] at hrest
  rw [fractionMicros_eq, firstValue, firstValue, ← hsplit, ofDigitValues_append, hthree]
  simp only [List.length_map, List.length_drop, length_firstPlaces]
  omega

/-! ### Texts in digits -/

/-- The text `YYYY-MM-DD`. -/
def dateText (year month day : Nat) : Text :=
  (places 4 year).map digit ++ CodePoint.ofChar '-' :: ((places 2 month).map digit ++
    CodePoint.ofChar '-' :: (places 2 day).map digit)

/-- The text `HH:MM:SS`. -/
def clockText (hour minute second : Nat) : Text :=
  (places 2 hour).map digit ++ CodePoint.ofChar ':' :: ((places 2 minute).map digit ++
    CodePoint.ofChar ':' :: (places 2 second).map digit)

/-- The text of a fraction with its point; without digits there is neither. -/
def fractionText : List (Fin 10) → Text
  | [] => []
  | d :: ds => CodePoint.ofChar '.' :: (d :: ds).map digit

/-- The text `hh:mm`. -/
def offsetText (hour minute : Nat) : Text :=
  (places 2 hour).map digit ++ CodePoint.ofChar ':' :: (places 2 minute).map digit

theorem map_val_digits (ds : List (Fin 10)) : (ds.map digit).map Fin.val = digitOctets ds := by
  rw [List.map_map]
  exact List.map_congr_left fun d _ => val_digit d

theorem map_val_dateText (year month day : Nat) :
    (dateText year month day).map Fin.val = dateOctets year month day := by
  simp only [dateText, dateOctets, List.map_append, List.map_cons, map_val_digits]
  rfl

theorem map_val_clockText (hour minute second : Nat) :
    (clockText hour minute second).map Fin.val = clockOctets hour minute second := by
  simp only [clockText, clockOctets, List.map_append, List.map_cons, map_val_digits]
  rfl

theorem map_val_fractionText (ds : List (Fin 10)) :
    (fractionText ds).map Fin.val = fractionOctets ds := by
  cases ds with
  | nil => rfl
  | cons d ds =>
    rw [fractionText, fractionOctets, List.map_cons, map_val_digits]
    rfl

theorem map_val_offsetText (hour minute : Nat) :
    (offsetText hour minute).map Fin.val = offsetOctets hour minute := by
  simp only [offsetText, offsetOctets, List.map_append, List.map_cons, map_val_digits]
  rfl

/-! ### The parts of a time -/

/-- A part of a timestamp in digits: ASCII, and without letters. -/
def IsPart (t : Text) : Prop := ∀ c ∈ t, 43 ≤ c.val ∧ c.val ≤ 58

theorem isPart_nil : IsPart [] := nofun

theorem IsPart.append {s t : Text} (hs : IsPart s) (ht : IsPart t) : IsPart (s ++ t) := by
  intro c hc
  rcases List.mem_append.1 hc with h | h
  · exact hs c h
  · exact ht c h

theorem IsPart.cons {c : CodePoint} {t : Text} (hc : 43 ≤ c.val ∧ c.val ≤ 58) (ht : IsPart t) :
    IsPart (c :: t) := by
  intro d hd
  rcases List.mem_cons.1 hd with rfl | h
  · exact hc
  · exact ht d h

theorem isPart_digits (ds : List (Fin 10)) : IsPart (ds.map digit) := by
  intro c hc
  obtain ⟨d, -, rfl⟩ := List.mem_map.1 hc
  rw [val_digit]
  omega

theorem isPart_dateText (year month day : Nat) : IsPart (dateText year month day) :=
  (isPart_digits _).append (.cons (by decide)
    ((isPart_digits _).append (.cons (by decide) (isPart_digits _))))

theorem isPart_clockText (hour minute second : Nat) : IsPart (clockText hour minute second) :=
  (isPart_digits _).append (.cons (by decide)
    ((isPart_digits _).append (.cons (by decide) (isPart_digits _))))

theorem isPart_fractionText (ds : List (Fin 10)) : IsPart (fractionText ds) := by
  cases ds with
  | nil => exact isPart_nil
  | cons d ds => exact .cons (by decide) (isPart_digits _)

theorem isPart_offsetText (hour minute : Nat) : IsPart (offsetText hour minute) :=
  (isPart_digits _).append (.cons (by decide) (isPart_digits _))

/-- A part has no letter. -/
theorem IsPart.toChar_ne {t : Text} (h : IsPart t) {c : CodePoint} (hc : c ∈ t) {x : Char}
    (hx : 58 < x.toNat) : c.toChar ≠ x := by
  have hb := h c hc
  have hv := CodePoint.toNat_toChar (CodePoint.isHalf_of_ascii (show c.val < 0x80 by omega))
  intro he
  rw [he] at hv
  omega

/-! ### The first fraction -/

/-- A text without a `T` before it does not touch the first fraction. -/
theorem sixDigitFraction_append {before : Text} (h : ∀ c ∈ before, c.toChar ≠ 'T') (t : Text) :
    sixDigitFraction (before ++ t) = before ++ sixDigitFraction t := by
  induction before with
  | nil => rfl
  | cons c before ih =>
    have hc : startsFraction (c :: before ++ t) = false := by
      rw [startsFraction, List.cons_append, List.take_succ_cons, chars, List.map_cons]
      split
      · rename_i heq
        exact absurd (List.cons.inj heq).1 (h c List.mem_cons_self)
      · rfl
    rw [List.cons_append, sixDigitFraction, ← List.cons_append, hc]
    exact congrArg (c :: ·) (ih fun d hd => h d (List.mem_cons_of_mem _ hd))

theorem IsPart.sixDigitFraction_append {before : Text} (h : IsPart before) (t : Text) :
    sixDigitFraction (before ++ t) = before ++ sixDigitFraction t :=
  Timestamp.sixDigitFraction_append (fun _ hc => h.toChar_ne hc (by decide)) t

/-- Without a `T` there is no fraction to be filled up. -/
theorem sixDigitFraction_eq_self {t : Text} (h : ∀ c ∈ t, c.toChar ≠ 'T') :
    sixDigitFraction t = t := by
  have happend := sixDigitFraction_append h []
  rw [List.append_nil] at happend
  rw [happend, sixDigitFraction, List.append_nil]

theorem isAsciiDigit_digit : ∀ d : Fin 10, isAsciiDigit (digit d).toChar = true := by decide

theorem digitValue?_digit : ∀ d : Fin 10, (digitValue? (digit d).toChar).isSome = true := by decide

/-- A time of day with the `T` before it starts a fraction if a point and a digit follow. -/
theorem startsFraction_clockText (hour minute second : Nat) (c g : CodePoint) (rest : Text) :
    startsFraction (CodePoint.ofChar 'T' :: (clockText hour minute second ++ c :: g :: rest)) =
      (decide (c.toChar = '.') && isAsciiDigit g.toChar) := by
  simp only [startsFraction, clockText, places, List.nil_append, List.cons_append, List.map_cons,
    List.map_nil, List.take_succ_cons, List.take_zero, chars, CodePoint.toChar_ofChar]
  by_cases hc : c.toChar = '.'
  · simp only [hc, List.all_cons, List.all_nil, digitValue?_digit, Bool.true_and, decide_true]
  · rw [decide_eq_false hc, Bool.false_and]
    split
    · rename_i heq
      simp only [List.cons.injEq] at heq
      exact absurd heq.2.2.2.2.2.2.2.2.2.1 hc
    · rfl

/-- What is too long is cut, and zeros fill the rest. -/
theorem sixDigitFraction_of_startsFraction {c : CodePoint} {time : Text} (ht : time.length = 9)
    (ds : List (Fin 10)) {rest : Text} (hrest : ∀ x ∈ rest.head?, isAsciiDigit x.toChar = false)
    (h : startsFraction (c :: (time ++ (ds.map digit ++ rest))) = true) :
    sixDigitFraction (c :: (time ++ (ds.map digit ++ rest))) =
      c :: (time ++ ((firstPlaces 6 ds).map digit ++ rest)) := by
  have hdigits : ∀ x ∈ ds.map digit, isAsciiDigit x.toChar = true := by
    intro x hx
    obtain ⟨d, -, rfl⟩ := List.mem_map.1 hx
    exact isAsciiDigit_digit d
  have htake : rest.takeWhile (fun x => isAsciiDigit x.toChar) = [] := by
    cases rest with
    | nil => rfl
    | cons x rest => exact List.takeWhile_cons_of_neg (by simp [hrest x (by simp)])
  have hdrop : rest.dropWhile (fun x => isAsciiDigit x.toChar) = rest := by
    cases rest with
    | nil => rfl
    | cons x rest => exact List.dropWhile_cons_of_neg (by simp [hrest x (by simp)])
  have hzeros : ("000000" : Text) = (List.replicate 6 zeroDigit).map digit := by decide
  rw [sixDigitFraction, h, if_pos rfl]
  dsimp only
  rw [List.take_left' ht, List.drop_left' ht, List.takeWhile_append_of_pos hdigits,
    List.dropWhile_append_of_pos hdigits, htake, hdrop, List.append_nil, hzeros, ← List.map_append,
    ← List.map_take, ← firstPlaces]
  simp

/-- **The first fraction gets six digits.** -/
theorem sixDigitFraction_clockText (hour minute second : Nat) {d : Fin 10} (ds : List (Fin 10))
    {rest : Text} (hrest : ∀ c ∈ rest.head?, isAsciiDigit c.toChar = false) :
    sixDigitFraction (CodePoint.ofChar 'T' :: (clockText hour minute second ++
        (fractionText (d :: ds) ++ rest))) =
      CodePoint.ofChar 'T' :: (clockText hour minute second ++
        (fractionText (firstPlaces 6 (d :: ds)) ++ rest)) := by
  have hlen : (clockText hour minute second ++ [CodePoint.ofChar '.']).length = 9 := by
    simp [clockText]
  have hpoint {e : Fin 10} (es : List (Fin 10)) :
      clockText hour minute second ++ (fractionText (e :: es) ++ rest) =
        clockText hour minute second ++
          [CodePoint.ofChar '.'] ++ ((e :: es).map digit ++ rest) := by
    simp [fractionText]
  have hstart : startsFraction (CodePoint.ofChar 'T' :: (clockText hour minute second ++
      (fractionText (d :: ds) ++ rest))) = true := by
    rw [fractionText, List.map_cons, List.cons_append, List.cons_append, startsFraction_clockText,
      isAsciiDigit_digit, CodePoint.toChar_ofChar]
    rfl
  rw [hpoint] at hstart ⊢
  rw [sixDigitFraction_of_startsFraction hlen _ hrest hstart]
  exact congrArg _ (hpoint _).symm

/-- What starts a fraction is a `T`, a time of day in digits of any script, a point and an ASCII
digit. -/
theorem exists_of_startsFraction {t : Text} (h : startsFraction t = true) :
    ∃ a b c d e f g rest, t = CodePoint.ofChar 'T' :: a :: b :: CodePoint.ofChar ':' :: c :: d ::
      CodePoint.ofChar ':' :: e :: f :: CodePoint.ofChar '.' :: g :: rest ∧
      (∀ x ∈ [a, b, c, d, e, f], (digitValue? x.toChar).isSome = true) ∧
      isAsciiDigit g.toChar = true := by
  rw [startsFraction] at h
  split at h
  · rename_i heq
    simp only [chars, List.map_eq_cons_iff] at heq
    obtain ⟨t', _, ht, hT, a, _, rfl, rfl, b, _, rfl, rfl, m₁, _, rfl, hm₁, c, _, rfl, rfl,
      d, _, rfl, rfl, m₂, _, rfl, hm₂, e, _, rfl, rfl, f, _, rfl, rfl, p, _, rfl, hp,
      g, rest, rfl, rfl, -⟩ := heq
    obtain rfl := CodePoint.eq_ofChar_of_toChar hT (by decide)
    obtain rfl := CodePoint.eq_ofChar_of_toChar hm₁ (by decide)
    obtain rfl := CodePoint.eq_ofChar_of_toChar hm₂ (by decide)
    obtain rfl := CodePoint.eq_ofChar_of_toChar hp (by decide)
    rw [Bool.and_eq_true, List.all_eq_true] at h
    refine ⟨a, b, c, d, e, f, g, rest ++ t.drop 11, ?_, ?_, h.2⟩
    · conv_lhs => rw [← List.take_append_drop 11 t, ht]
      rfl
    · simpa using h.1
  · exact absurd h Bool.false_ne_true

/-- **Preparing a time keeps its microseconds**, whatever stands before it and without a fraction
too. -/
theorem exists_sixDigitFraction_clockText (hour minute second : Nat) (mark : CodePoint)
    (ds : List (Fin 10)) {rest : Text} (hpart : IsPart rest)
    (hrest : ∀ c ∈ rest.head?, isAsciiDigit c.toChar = false ∧ c ≠ CodePoint.ofChar '.') :
    ∃ es, fractionMicros es = fractionMicros ds ∧
      sixDigitFraction (mark :: (clockText hour minute second ++ (fractionText ds ++ rest))) =
        mark :: (clockText hour minute second ++ (fractionText es ++ rest)) := by
  have htail : IsPart (clockText hour minute second ++ (fractionText ds ++ rest)) :=
    (isPart_clockText hour minute second).append ((isPart_fractionText ds).append hpart)
  have hself : sixDigitFraction (clockText hour minute second ++ (fractionText ds ++ rest)) =
      clockText hour minute second ++ (fractionText ds ++ rest) :=
    sixDigitFraction_eq_self fun c hc => htail.toChar_ne hc (by decide)
  by_cases hstart : startsFraction (mark :: (clockText hour minute second ++
      (fractionText ds ++ rest))) = true
  · obtain ⟨a, b, c, d, e, f, g, tail, heq, -, -⟩ := exists_of_startsFraction hstart
    obtain ⟨rfl, htime⟩ := List.cons.inj heq
    cases ds with
    | nil =>
      have hpoint := congrArg (·[8]?) htime
      simp only [clockText, places, fractionText, List.nil_append, List.cons_append, List.map_cons,
        List.map_nil, List.getElem?_cons_succ, List.getElem?_cons_zero] at hpoint
      rw [← List.head?_eq_getElem?] at hpoint
      exact absurd rfl (hrest _ hpoint).2
    | cons d ds =>
      exact ⟨_, fractionMicros_firstPlaces (d :: ds),
        sixDigitFraction_clockText hour minute second ds fun c hc => (hrest c hc).1⟩
  · exact ⟨ds, rfl, by rw [sixDigitFraction, if_neg hstart, hself]⟩

/-! ### The offset at the end -/

/-- A `Z` at the end becomes an offset of zero. -/
theorem zuluToOffset_zulu (t : Text) {c : CodePoint}
    (hc : c = CodePoint.ofChar 'Z' ∨ c = CodePoint.ofChar 'z') :
    zuluToOffset (t ++ [c]) = t ++ "+00:00" := by
  rw [zuluToOffset, List.reverse_append, List.reverse_singleton, List.singleton_append]
  rcases hc with rfl | rfl
  · exact congrArg (· ++ _) (List.reverse_reverse t)
  · exact congrArg (· ++ _) (List.reverse_reverse t)

/-- Any other text stays as it is. -/
theorem zuluToOffset_eq_self {t : Text} (h : ∀ c ∈ t.getLast?, c ≠ CodePoint.ofChar 'Z' ∧
    c ≠ CodePoint.ofChar 'z') : zuluToOffset t = t := by
  rw [zuluToOffset]
  split
  · rfl
  · rename_i c before heq
    have hlast : t.getLast? = some c := by rw [List.getLast?_eq_head?_reverse, heq]; rfl
    obtain ⟨hZ, hz⟩ := h c hlast
    exact if_neg (by simp only [Bool.or_eq_true, decide_eq_true_eq, not_or]; exact ⟨hZ, hz⟩)

/-! ### Octets -/

/-- The octets of an ASCII text are its code points. -/
theorem octetsOf_chars {t : Text} (h : ∀ c ∈ t, c.val < 0x80) :
    octetsOf t.chars = t.map Fin.val := by
  induction t with
  | nil => rfl
  | cons c t ih =>
    have hc : c.val < 0x80 := h c List.mem_cons_self
    have hv : c.toChar.val.toNat = c.val := CodePoint.toNat_toChar (CodePoint.isHalf_of_ascii hc)
    have ho : (String.utf8EncodeChar c.toChar).map UInt8.toNat = [c.val] := by
      simp only [String.utf8EncodeChar, hv]
      rw [if_pos (by omega)]
      simp
      omega
    rw [chars, List.map_cons, octetsOf, List.flatMap_cons, ho, List.map_cons]
    exact congrArg (c.val :: ·) (ih fun d hd => h d (List.mem_cons_of_mem _ hd))

/-- A half of a surrogate pair is not ASCII. -/
theorem replaceHalf_eq_self {t : Text} (h : ∀ c ∈ t, c.val < 0x80) : replaceHalf t = t := by
  have hnone : (separatorPlaces.find? fun i => t[i]?.any CodePoint.isHalf) = none := by
    rw [List.find?_eq_none]
    intro i _
    cases hi : t[i]? with
    | none => simp
    | some c => simp [CodePoint.isHalf_of_ascii (h c (List.mem_of_getElem? hi))]
  rw [replaceHalf, hnone]

/-- A prepared ASCII text is read octet by octet. -/
theorem millis?_of_ascii {t prepared : Text} (hp : sixDigitFraction (zuluToOffset t) = prepared)
    (ha : ∀ c ∈ prepared, c.val < 0x80) :
    millis? t = (instant? (prepared.map Fin.val)).map (· / 1000) := by
  have hany : prepared.any CodePoint.isHalf = false := by
    rw [List.any_eq_false]
    intro c hc
    simp [CodePoint.isHalf_of_ascii (ha c hc)]
  simp only [millis?, hp, replaceHalf_eq_self ha, hany, octetsOf_chars ha]
  rfl

end Timestamp
end MachineCatalog
