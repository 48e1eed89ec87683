/-
# JSON strings are read back

A string is written code point by code point (`Json.pieces?_escaped`): a code point of
printable ASCII or with a short escape is read as its character, any other as one code
unit of UTF-16 or as two.  Two code units that are the halves of one pair are read as one
code point, also when the text had the halves side by side.  So what is read is the text
with such halves joined (`Json.string_quoted`).

A text in which no first half stands right before a second one is paired
(`Json.IsPaired`), and reads back as it was (`Json.joined_eq_self`).  Every text is written
like its joined form (`Json.quoted_joined`), which is paired (`Json.isPaired_joined`).
-/

import MachineCatalog.Json.Reader
import MachineCatalog.Json.Writer
import MachineCatalog.Proofs.Text.Digits
import Mathlib.Data.List.Chain

namespace MachineCatalog
namespace Json

open Text

/-! ### Halves of pairs -/

/-- The first half of a surrogate pair. -/
def IsFirstHalf (c : CodePoint) : Prop := 0xD800 ≤ c.val ∧ c.val < 0xDC00

/-- The second half of a surrogate pair. -/
def IsSecondHalf (c : CodePoint) : Prop := 0xDC00 ≤ c.val ∧ c.val < 0xE000

instance (c : CodePoint) : Decidable (IsFirstHalf c) := by unfold IsFirstHalf; infer_instance

instance (c : CodePoint) : Decidable (IsSecondHalf c) := by unfold IsSecondHalf; infer_instance

/-- The code point of a surrogate pair. -/
def ofHalves (first second : CodePoint) : CodePoint :=
  .ofNat (0x10000 + (first.val - 0xD800) * 0x400 + (second.val - 0xDC00))

/-- A text in which halves of one pair that stand side by side are joined. -/
def joined : Text → Text
  | [] => []
  | [c] => [c]
  | c :: d :: rest =>
    if IsFirstHalf c ∧ IsSecondHalf d then ofHalves c d :: joined rest
    else c :: joined (d :: rest)

/-- No halves of one pair stand side by side. -/
def IsPaired (t : Text) : Prop := t.IsChain fun c d => ¬(IsFirstHalf c ∧ IsSecondHalf d)

instance (t : Text) : Decidable (IsPaired t) := by unfold IsPaired; infer_instance

theorem val_ofHalves {c d : CodePoint} (hc : IsFirstHalf c) (hd : IsSecondHalf d) :
    (ofHalves c d).val = 0x10000 + (c.val - 0xD800) * 0x400 + (d.val - 0xDC00) := by
  obtain ⟨hc, hc'⟩ := hc
  obtain ⟨hd, hd'⟩ := hd
  exact Nat.mod_eq_of_lt (by omega)

theorem joined_eq_self {t : Text} (h : IsPaired t) : joined t = t := by
  induction t with
  | nil => rfl
  | cons c t ih =>
    cases t with
    | nil => rfl
    | cons d rest =>
      rw [IsPaired, List.isChain_cons_cons] at h
      rw [joined, if_neg h.1, ih h.2]

/-- What comes first in the joined text is a second half only if one came first before. -/
theorem not_isSecondHalf_head_joined {t : Text} (h : ∀ c ∈ t.head?, ¬IsSecondHalf c) :
    ∀ c ∈ (joined t).head?, ¬IsSecondHalf c := by
  rintro x hx
  match t with
  | [] => exact absurd hx nofun
  | [c] => exact h x hx
  | c :: d :: rest =>
    rw [joined] at hx
    split_ifs at hx with hcd
    · obtain rfl := Option.some.inj hx
      rw [IsSecondHalf, val_ofHalves hcd.1 hcd.2]
      omega
    · exact h x hx

theorem isPaired_joined (t : Text) : IsPaired (joined t) := by
  induction t using joined.induct with
  | case1 => exact .nil
  | case2 c => exact .singleton c
  | case3 c d rest hcd ih =>
    rw [joined, if_pos hcd]
    refine ih.cons fun x _ hx => ?_
    have hfirst := hx.1
    rw [IsFirstHalf, val_ofHalves hcd.1 hcd.2] at hfirst
    omega
  | case4 c d rest hcd ih =>
    rw [joined, if_neg hcd]
    refine ih.cons fun x hx hcx => ?_
    have hd : ∀ y ∈ (d :: rest).head?, ¬IsSecondHalf y := by
      rintro y hy
      obtain rfl := Option.some.inj hy
      exact fun hsecond => hcd ⟨hcx.1, hsecond⟩
    exact not_isSecondHalf_head_joined hd x hx hcx.2

/-! ### Escapes -/

theorem hexValue?_digitChar : ∀ d : Fin 16, hexValue? (Nat.digitChar d) = some d.val := by decide

/-- A code unit is written in four digits. -/
theorem paddedDigits_unit {n : Nat} (h : n < 0x10000) :
    paddedDigits 16 4 n = [(n / 4096).digitChar, (n / 256 % 16).digitChar, (n / 16 % 16).digitChar,
      (n % 16).digitChar] := by
  have hone : paddedDigits 16 1 (n / 4096) = [(n / 4096).digitChar] := by
    rw [paddedDigits, Nat.toDigits_of_lt_base (by omega)]
    rfl
  have htwo : n / 16 / 16 = n / 256 := by omega
  have hthree : n / 256 / 16 = n / 4096 := by omega
  rw [paddedDigits_succ (by decide) (by decide), paddedDigits_succ (by decide) (by decide),
    paddedDigits_succ (by decide) (by decide), htwo, hthree, hone]
  rfl

theorem unitOf?_digits {n : Nat} (h : n < 0x10000) :
    unitOf? (n / 4096).digitChar (n / 256 % 16).digitChar (n / 16 % 16).digitChar
      (n % 16).digitChar = some n := by
  have hdigit {d : Nat} (hd : d < 16) : hexValue? d.digitChar = some d :=
    hexValue?_digitChar ⟨d, hd⟩
  rw [unitOf?, hdigit (show n / 4096 < 16 by omega), hdigit (show n / 256 % 16 < 16 by omega),
    hdigit (show n / 16 % 16 < 16 by omega), hdigit (show n % 16 < 16 by omega)]
  refine congrArg some ?_
  omega

/-- Puts pieces in front of those that are read. -/
def prepended (ps : List Piece) (r : Option (List Piece × List Char)) :
    Option (List Piece × List Char) := r.map fun p => (ps ++ p.1, p.2)

theorem pieces?_unitEscape {n : Nat} (h : n < 0x10000) (cs : List Char) :
    pieces? ((unitEscape n).chars ++ cs) = prepended [.unit n] (pieces? cs) := by
  have hchars : (unitEscape n).chars = ['\\', 'u'] ++ paddedDigits 16 4 n := by
    rw [unitEscape, chars_append, hexadecimal, chars_ofChars]
    rfl
  rw [hchars, paddedDigits_unit h]
  simp only [List.cons_append, List.nil_append, pieces?, unitOf?_digits h]
  cases pieces? cs <;> rfl

theorem pieces?_shortEscape {e c : Char} (he : e ≠ 'u') (h : shortEscape? e = some c)
    (cs : List Char) : pieces? ('\\' :: e :: cs) = prepended [.char c] (pieces? cs) := by
  rw [pieces?, h]
  · cases pieces? cs <;> rfl
  · exact fun _ _ _ _ _ hu _ => he hu

theorem pieces?_char {c : Char} (hq : c ≠ '"') (hb : c ≠ '\\') (hc : 0x20 ≤ c.toNat)
    (cs : List Char) : pieces? (c :: cs) = prepended [.char c] (pieces? cs) := by
  rw [pieces?]
  · rw [if_neg (by simpa [hb] using hc)]
    cases pieces? cs <;> rfl
  all_goals
    intros
    simp_all

/-- How a code point is written, and the pieces that are read for it. -/
inductive EscapedAs (c : CodePoint) : List Piece → Prop
  | short (e x : Char) (he : e ≠ 'u') (hx : shortEscape? e = some x) (hc : c = .ofChar x)
      (h : escaped c = ofChars ['\\', e]) : EscapedAs c [.char x]
  | plain (x : Char) (hq : x ≠ '"') (hb : x ≠ '\\') (hx : 0x20 ≤ x.toNat) (hc : c = .ofChar x)
      (h : escaped c = [c]) : EscapedAs c [.char x]
  | unit (hc : c.val < 0x10000) (h : escaped c = unitEscape c.val) : EscapedAs c [.unit c.val]
  | pair (hc : 0x10000 ≤ c.val)
      (h : escaped c = unitEscape (0xD800 + (c.val - 0x10000) / 0x400) ++
        unitEscape (0xDC00 + (c.val - 0x10000) % 0x400)) :
      EscapedAs c [.unit (0xD800 + (c.val - 0x10000) / 0x400),
        .unit (0xDC00 + (c.val - 0x10000) % 0x400)]

theorem exists_escapedAs (c : CodePoint) : ∃ ps, EscapedAs c ps := by
  by_cases h₁ : c = '"'
  · exact ⟨_, .short '"' '"' (by decide) rfl h₁ (by rw [h₁]; rfl)⟩
  by_cases h₂ : c = '\\'
  · exact ⟨_, .short '\\' '\\' (by decide) rfl h₂ (by rw [h₂]; rfl)⟩
  by_cases h₃ : c = '\n'
  · exact ⟨_, .short 'n' '\n' (by decide) rfl h₃ (by rw [h₃]; rfl)⟩
  by_cases h₄ : c = '\r'
  · exact ⟨_, .short 'r' '\r' (by decide) rfl h₄ (by rw [h₄]; rfl)⟩
  by_cases h₅ : c = '\t'
  · exact ⟨_, .short 't' '\t' (by decide) rfl h₅ (by rw [h₅]; rfl)⟩
  by_cases h₆ : c = '\x08'
  · exact ⟨_, .short 'b' '\x08' (by decide) rfl h₆ (by rw [h₆]; rfl)⟩
  by_cases h₇ : c = '\x0c'
  · exact ⟨_, .short 'f' '\x0c' (by decide) rfl h₇ (by rw [h₇]; rfl)⟩
  have hescaped : escaped c =
      if 0x20 ≤ c.val && c.val < 0x7F then [c]
      else if c.val < 0x10000 then unitEscape c.val
      else unitEscape (0xD800 + (c.val - 0x10000) / 0x400) ++
        unitEscape (0xDC00 + (c.val - 0x10000) % 0x400) := by
    rw [escaped, if_neg h₁, if_neg h₂, if_neg h₃, if_neg h₄, if_neg h₅, if_neg h₆, if_neg h₇]
  split_ifs at hescaped with hplain hunit
  · rw [Bool.and_eq_true, decide_eq_true_iff, decide_eq_true_iff] at hplain
    have hhalf : c.isHalf = false := CodePoint.isHalf_of_ascii (by omega)
    have hval := CodePoint.toNat_toChar hhalf
    have hc : c = .ofChar c.toChar := Fin.ext hval.symm
    refine ⟨_, .plain c.toChar ?_ ?_ (by omega) hc hescaped⟩
    · exact fun he => h₁ (he ▸ hc)
    · exact fun he => h₂ (he ▸ hc)
  · exact ⟨_, .unit hunit hescaped⟩
  · exact ⟨_, .pair (by omega) hescaped⟩

/-- **A code point is read in its pieces**, with anything after it. -/
theorem EscapedAs.pieces?_eq {c : CodePoint} {ps : List Piece} (h : EscapedAs c ps)
    (cs : List Char) : pieces? ((escaped c).chars ++ cs) = prepended ps (pieces? cs) := by
  cases h with
  | short e x he hx hc h =>
    rw [h, chars_ofChars]
    exact pieces?_shortEscape he hx cs
  | plain x hq hb hx hc h =>
    rw [h, hc, show chars [CodePoint.ofChar x] = [x] from chars_ofChars [x]]
    exact pieces?_char hq hb hx cs
  | unit hc h =>
    rw [h]
    exact pieces?_unitEscape hc cs
  | pair hc h =>
    have hlt := c.isLt
    rw [h, chars_append, List.append_assoc, pieces?_unitEscape (by omega),
      pieces?_unitEscape (by omega)]
    cases pieces? cs <;> rfl

/-! ### Pieces joined -/

theorem ofNat_val (c : CodePoint) : CodePoint.ofNat c.val = c :=
  Fin.ext (Nat.mod_eq_of_lt c.isLt)

/-- Only code units stand for halves. -/
theorem EscapedAs.eq_unit {c : CodePoint} {ps : List Piece} (h : EscapedAs c ps)
    (hc : c.isHalf = true) : ps = [.unit c.val] := by
  cases h with
  | short e x _ _ hx _ => exact absurd hc (by rw [hx, CodePoint.isHalf_ofChar]; decide)
  | plain x _ _ _ hx _ => exact absurd hc (by rw [hx, CodePoint.isHalf_ofChar]; decide)
  | unit _ _ => rfl
  | pair hlarge _ =>
    rw [CodePoint.isHalf, Bool.and_eq_true, decide_eq_true_iff, decide_eq_true_iff] at hc
    omega

/-- The pieces of what is no second half start with none. -/
theorem EscapedAs.head_of_not_isSecondHalf {c : CodePoint} {ps qs more : List Piece} {n : Nat}
    (h : EscapedAs c ps) (hc : ¬IsSecondHalf c) (he : ps ++ qs = .unit n :: more) :
    ¬(0xDC00 ≤ n ∧ n < 0xE000) := by
  cases h with
  | short e x _ _ _ _ => exact absurd (List.cons.inj he).1 nofun
  | plain x _ _ _ _ _ => exact absurd (List.cons.inj he).1 nofun
  | unit _ _ =>
    obtain rfl := Piece.unit.inj (List.cons.inj he).1
    exact hc
  | pair _ _ =>
    obtain rfl := Piece.unit.inj (List.cons.inj he).1
    have hlt := c.isLt
    omega

/-- A code unit that has no other half after it is a code point of its own. -/
theorem joinPieces_unit {n : Nat} {ps : List Piece}
    (h : 0xD800 ≤ n ∧ n < 0xDC00 → ∀ l more, ps = .unit l :: more →
      ¬(0xDC00 ≤ l ∧ l < 0xE000)) :
    joinPieces (.unit n :: ps) = .ofNat n :: joinPieces ps := by
  cases ps with
  | nil => rfl
  | cons p ps =>
    cases p with
    | char c => rfl
    | unit l =>
      rw [joinPieces, if_neg]
      simp only [Bool.and_eq_true, decide_eq_true_eq]
      exact fun hn => h hn.1.1 l ps rfl ⟨hn.1.2, hn.2⟩

/-- The pieces of one code point give it back, when no second half follows a first. -/
theorem EscapedAs.joinPieces_append {c : CodePoint} {ps qs : List Piece} (h : EscapedAs c ps)
    (hq : IsFirstHalf c → ∀ l more, qs = .unit l :: more → ¬(0xDC00 ≤ l ∧ l < 0xE000)) :
    joinPieces (ps ++ qs) = c :: joinPieces qs := by
  cases h with
  | short e x _ _ hc _ =>
    rw [hc]
    rfl
  | plain x _ _ _ hc _ =>
    rw [hc]
    rfl
  | unit _ _ => rw [List.singleton_append, joinPieces_unit hq, ofNat_val]
  | pair hc _ =>
    have hlt := c.isLt
    have hcond : (0xD800 ≤ 0xD800 + (c.val - 0x10000) / 0x400 &&
        0xD800 + (c.val - 0x10000) / 0x400 < 0xDC00 &&
        0xDC00 ≤ 0xDC00 + (c.val - 0x10000) % 0x400 &&
        0xDC00 + (c.val - 0x10000) % 0x400 < 0xE000) = true := by
      simp only [Bool.and_eq_true, decide_eq_true_eq]
      omega
    have hval : 0x10000 + (0xD800 + (c.val - 0x10000) / 0x400 - 0xD800) * 0x400 +
        (0xDC00 + (c.val - 0x10000) % 0x400 - 0xDC00) = c.val := by omega
    show joinPieces (.unit _ :: .unit _ :: qs) = _
    rw [joinPieces, if_pos hcond, hval, ofNat_val]

theorem isHalf_of_isFirstHalf {c : CodePoint} (h : IsFirstHalf c) : c.isHalf = true := by
  obtain ⟨hlow, hhigh⟩ := h
  rw [CodePoint.isHalf, Bool.and_eq_true, decide_eq_true_iff, decide_eq_true_iff]
  omega

theorem isHalf_of_isSecondHalf {c : CodePoint} (h : IsSecondHalf c) : c.isHalf = true := by
  obtain ⟨hlow, hhigh⟩ := h
  rw [CodePoint.isHalf, Bool.and_eq_true, decide_eq_true_iff, decide_eq_true_iff]
  omega

/-- **The pieces of a text give it back with halves joined.** -/
theorem joinPieces_flatten {t : Text} {pss : List (List Piece)}
    (h : List.Forall₂ EscapedAs t pss) : joinPieces pss.flatten = joined t := by
  induction t using joined.induct generalizing pss with
  | case1 =>
    cases h
    rfl
  | case2 c =>
    obtain ⟨ps, hps, rfl⟩ : ∃ ps, EscapedAs c ps ∧ pss = [ps] := by
      cases h with
      | cons hps hnil =>
        cases hnil
        exact ⟨_, hps, rfl⟩
    rw [List.flatten_cons, hps.joinPieces_append fun _ _ _ he => absurd he (by simp)]
    rfl
  | case3 c d rest hcd ih =>
    cases h with
    | cons hc h =>
      cases h with
      | cons hd h =>
        obtain rfl := hc.eq_unit (isHalf_of_isFirstHalf hcd.1)
        obtain rfl := hd.eq_unit (isHalf_of_isSecondHalf hcd.2)
        rw [joined, if_pos hcd, ← ih h]
        show joinPieces (.unit _ :: .unit _ :: _) = _
        rw [joinPieces, if_pos]
        · rfl
        · simp only [Bool.and_eq_true, decide_eq_true_eq]
          exact ⟨⟨hcd.1, hcd.2.1⟩, hcd.2.2⟩
  | case4 c d rest hcd ih =>
    cases h with
    | cons hc h =>
      rw [joined, if_neg hcd, ← ih h, List.flatten_cons, hc.joinPieces_append]
      intro hfirst l more he
      cases h with
      | cons hd h =>
        exact hd.head_of_not_isSecondHalf (fun hsecond => hcd ⟨hfirst, hsecond⟩) he

theorem exists_forall₂_escapedAs (t : Text) : ∃ pss, List.Forall₂ EscapedAs t pss := by
  induction t with
  | nil => exact ⟨[], .nil⟩
  | cons c t ih =>
    obtain ⟨ps, hps⟩ := exists_escapedAs c
    obtain ⟨pss, hpss⟩ := ih
    exact ⟨ps :: pss, .cons hps hpss⟩

theorem pieces?_flatMap {t : Text} {pss : List (List Piece)} (h : List.Forall₂ EscapedAs t pss)
    (cs : List Char) :
    pieces? (chars (t.flatMap escaped) ++ cs) = prepended pss.flatten (pieces? cs) := by
  induction h with
  | nil =>
    show pieces? cs = prepended [] (pieces? cs)
    cases pieces? cs <;> rfl
  | cons hc _ ih =>
    rw [List.flatMap_cons, chars_append, List.append_assoc, hc.pieces?_eq, ih]
    cases pieces? cs with
    | none => rfl
    | some p => simp [prepended]

/-! ### Strings -/

theorem chars_quoted (t : Text) :
    (quoted t).chars = '"' :: (chars (t.flatMap escaped) ++ ['"']) := by
  rw [quoted, chars_append, chars_append]
  rfl

/-- **A string is read as its text with halves joined.** -/
theorem string_quoted (t : Text) (rest : List Char) :
    string (chars (t.flatMap escaped) ++ '"' :: rest) = .ok (joined t, rest) := by
  obtain ⟨pss, h⟩ := exists_forall₂_escapedAs t
  have hend : pieces? ('"' :: rest) = some ([], rest) := rfl
  rw [string, pieces?_flatMap h, hend, ← joinPieces_flatten h]
  simp [prepended, required]

theorem escaped_of_le {c : CodePoint} (h : 0x7F ≤ c.val) :
    escaped c =
      if c.val < 0x10000 then unitEscape c.val
      else unitEscape (0xD800 + (c.val - 0x10000) / 0x400) ++
        unitEscape (0xDC00 + (c.val - 0x10000) % 0x400) := by
  have hne (x : Char) (hx : x.toNat < 0x7F) : c ≠ x := by
    rintro rfl
    exact absurd h (Nat.not_le.2 hx)
  rw [escaped, if_neg (hne '"' (by decide)), if_neg (hne '\\' (by decide)),
    if_neg (hne '\n' (by decide)), if_neg (hne '\r' (by decide)), if_neg (hne '\t' (by decide)),
    if_neg (hne '\x08' (by decide)), if_neg (hne '\x0c' (by decide)), if_neg]
  simp only [Bool.and_eq_true, decide_eq_true_eq]
  omega

/-- The halves of a pair are written like their code point. -/
theorem escaped_ofHalves {c d : CodePoint} (hc : IsFirstHalf c) (hd : IsSecondHalf d) :
    escaped (ofHalves c d) = escaped c ++ escaped d := by
  have hval := val_ofHalves hc hd
  obtain ⟨hc, hc'⟩ := hc
  obtain ⟨hd, hd'⟩ := hd
  have hfirst : 0xD800 + ((ofHalves c d).val - 0x10000) / 0x400 = c.val := by omega
  have hsecond : 0xDC00 + ((ofHalves c d).val - 0x10000) % 0x400 = d.val := by omega
  rw [escaped_of_le (c := c) (by omega), escaped_of_le (c := d) (by omega),
    escaped_of_le (by omega), hfirst, hsecond, if_neg (by omega), if_pos (by omega),
    if_pos (by omega)]

/-- **A text is written like its joined form.** -/
theorem quoted_joined (t : Text) : quoted (joined t) = quoted t := by
  have h : (joined t).flatMap escaped = t.flatMap escaped := by
    induction t using joined.induct with
    | case1 => rfl
    | case2 c => rfl
    | case3 c d rest hcd ih =>
      rw [joined, if_pos hcd, List.flatMap_cons, List.flatMap_cons, List.flatMap_cons, ih,
        escaped_ofHalves hcd.1 hcd.2, List.append_assoc]
    | case4 c d rest hcd ih =>
      rw [joined, if_neg hcd, List.flatMap_cons, List.flatMap_cons, ih]
  rw [quoted, quoted, h]

end Json
end MachineCatalog
