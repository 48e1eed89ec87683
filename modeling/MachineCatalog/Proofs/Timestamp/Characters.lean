/-
# From octets back to characters

The reader of timestamps goes over the octets of a text.  A character beyond ASCII takes two octets
or more, none of them below 128 (`exists_charOctets`), so wherever the octets have an ASCII octet
the text has that character (`eq_append_of_octets`).  What is read of the octets is therefore read
of the text (`exists_form_of_instant?`).
-/

import MachineCatalog.Proofs.Timestamp.Inversion

namespace MachineCatalog
namespace Timestamp

open Text

/-- The octets of a code point. -/
def pointOctets (c : CodePoint) : List Nat := (String.utf8EncodeChar c.toChar).map UInt8.toNat

/-- The octets of a text. -/
def octets (t : Text) : List Nat := octetsOf t.chars

@[simp] theorem octets_nil : octets [] = [] := rfl

@[simp] theorem octets_cons (c : CodePoint) (t : Text) :
    octets (c :: t) = pointOctets c ++ octets t := rfl

/-- The octets of a character: its code if that is ASCII, and otherwise octets of which none is,
and the first tells how many they are. -/
theorem exists_charOctets (c : Char) :
    (c.toNat < 0x80 ∧ (String.utf8EncodeChar c).map UInt8.toNat = [c.toNat]) ∨
      (0x80 ≤ c.toNat ∧ ∃ b bs, (String.utf8EncodeChar c).map UInt8.toNat = b :: bs ∧
        (∀ x ∈ b :: bs, 0x80 ≤ x) ∧ characterWidth b = (b :: bs).length) := by
  have hv : c.val.toNat = c.toNat := rfl
  have hbyte (n : Nat) : (UInt8.ofNat n).toNat = n % 256 := UInt8.toNat_ofNat'
  have hmod : ∀ n < 256, n % 256 = n := fun n h => Nat.mod_eq_of_lt h
  simp only [String.utf8EncodeChar, hv]
  split_ifs with h₁ h₂ h₃
  · exact .inl ⟨by omega, by rw [List.map_singleton, hbyte, hmod _ (by omega)]⟩
  · refine .inr ⟨by omega, _, _, rfl, ?_, ?_⟩
    · simp only [hbyte, List.map_cons, List.map_nil, List.forall_mem_cons, List.not_mem_nil,
        IsEmpty.forall_iff, implies_true, and_true]
      omega
    · rw [hbyte, hmod _ (by omega), characterWidth, if_neg (by omega), if_pos (by omega)]
      rfl
  · refine .inr ⟨by omega, _, _, rfl, ?_, ?_⟩
    · simp only [hbyte, List.map_cons, List.map_nil, List.forall_mem_cons, List.not_mem_nil,
        IsEmpty.forall_iff, implies_true, and_true]
      omega
    · rw [hbyte, hmod _ (by omega), characterWidth, if_neg (by omega), if_neg (by omega),
        if_pos (by omega)]
      rfl
  · refine .inr ⟨by omega, _, _, rfl, ?_, ?_⟩
    · simp only [hbyte, List.map_cons, List.map_nil, List.forall_mem_cons, List.not_mem_nil,
        IsEmpty.forall_iff, implies_true, and_true]
      omega
    · rw [hbyte, hmod _ (by omega), characterWidth, if_neg (by omega), if_neg (by omega),
        if_neg (by omega)]
      rfl

theorem two_le_characterWidth {b : Nat} (h : 0x80 ≤ b) : 2 ≤ characterWidth b := by
  rw [characterWidth, if_neg (Nat.not_lt.2 h)]
  split_ifs <;> decide

/-- The octets of a code point that is no half of a pair. -/
theorem pointOctets_cases {c : CodePoint} (h : c.isHalf = false) :
    (c.val < 0x80 ∧ pointOctets c = [c.val]) ∨
      (0x80 ≤ c.val ∧ ∃ b bs, pointOctets c = b :: bs ∧ (∀ x ∈ b :: bs, 0x80 ≤ x) ∧
        characterWidth b = (b :: bs).length) := by
  have hc := exists_charOctets c.toChar
  rwa [CodePoint.toNat_toChar h] at hc

theorem octets_eq_nil {t : Text} (hw : IsWhole t) (h : octets t = []) : t = [] := by
  cases t with
  | nil => rfl
  | cons c t =>
    rw [octets_cons] at h
    have hc := (List.append_eq_nil_iff.1 h).1
    rcases pointOctets_cases (hw c List.mem_cons_self) with ⟨-, he⟩ | ⟨-, b, bs, he, -⟩
    · exact absurd (he.symm.trans hc) nofun
    · exact absurd (he.symm.trans hc) nofun

/-- The first octet of a text is ASCII only if the first character is. -/
theorem eq_of_octets_cons {c : CodePoint} {t : Text} {b : Nat} {bs : List Nat}
    (hw : c.isHalf = false) (h : octets (c :: t) = b :: bs) (hb : b < 0x80) :
    c.val = b ∧ octets t = bs := by
  rcases pointOctets_cases hw with ⟨-, he⟩ | ⟨-, d, ds, he, hall, -⟩
  · rw [octets_cons, he] at h
    exact List.cons.inj h
  · rw [octets_cons, he] at h
    have hd := hall d List.mem_cons_self
    have := (List.cons.inj h).1
    omega

/-- **An ASCII octet of a text is an ASCII character of it**, and what stands before and after it
are the octets of what stands before and after that character. -/
theorem eq_append_of_octets {t : Text} (hw : IsWhole t) {before after : List Nat}
    {b : Nat} (hb : b < 0x80) (h : octets t = before ++ b :: after) :
    ∃ u c v, t = u ++ c :: v ∧ c.val = b ∧ octets u = before ∧ octets v = after := by
  induction t generalizing before with
  | nil => exact absurd h.symm (by simp)
  | cons c t ih =>
    rw [isWhole_cons] at hw
    rcases pointOctets_cases hw.1 with ⟨-, he⟩ | ⟨-, d, ds, he, hall, -⟩
    · rw [octets_cons, he] at h
      cases before with
      | nil =>
        obtain ⟨hc, ht⟩ := List.cons.inj h
        exact ⟨[], c, t, rfl, hc, rfl, ht⟩
      | cons x before =>
        obtain ⟨rfl, ht⟩ := List.cons.inj h
        obtain ⟨u, d, v, rfl, hd, rfl, hv⟩ := ih hw.2 ht
        exact ⟨c :: u, d, v, rfl, hd, by rw [octets_cons, he]; rfl, hv⟩
    · rw [octets_cons, he] at h
      rcases List.append_eq_append_iff.1 h with ⟨more, rfl, ht⟩ | ⟨more, hmore, ht⟩
      · obtain ⟨u, x, v, rfl, hx, rfl, hv⟩ := ih hw.2 ht
        exact ⟨c :: u, x, v, rfl, hx, by rw [octets_cons, he], hv⟩
      · cases more with
        | nil =>
          have ht : octets t = [] ++ b :: after := ht.symm
          obtain ⟨u, x, v, rfl, hx, hu, hv⟩ := ih hw.2 ht
          rw [List.append_nil] at hmore
          exact ⟨c :: u, x, v, rfl, hx, by rw [octets_cons, he, hu, List.append_nil, hmore], hv⟩
        | cons x more =>
          have hx := hall x (by rw [hmore]; simp)
          have := (List.cons.inj ht).1
          omega

/-- A text whose octets start with those of an ASCII text starts with that text. -/
theorem eq_append_of_asciiOctets {t u : Text} (hw : IsWhole t)
    (hu : ∀ c ∈ u, c.val < 0x80) {rest : List Nat} (h : octets t = asciiOctets u ++ rest) :
    ∃ v, t = u ++ v ∧ octets v = rest := by
  induction u generalizing t with
  | nil => exact ⟨t, rfl, h⟩
  | cons c u ih =>
    rw [List.forall_mem_cons] at hu
    cases t with
    | nil => exact absurd h nofun
    | cons d t =>
      rw [isWhole_cons] at hw
      obtain ⟨hd, ht⟩ := eq_of_octets_cons hw.1 h hu.1
      obtain ⟨v, rfl, hv⟩ := ih hw.2 hu.2 ht
      exact ⟨v, by rw [Fin.ext hd]; rfl, hv⟩

/-- Stepping over the first character steps over its octets. -/
theorem exists_separator {t : Text} (hw : IsWhole t) {b : Nat} {rest : List Nat}
    (h : octets t = b :: rest) :
    ∃ c v, t = c :: v ∧ octets v = (b :: rest).drop (characterWidth b) := by
  cases t with
  | nil => exact absurd h nofun
  | cons c t =>
    refine ⟨c, t, rfl, ?_⟩
    rw [isWhole_cons] at hw
    rw [← h, octets_cons]
    rcases pointOctets_cases hw.1 with ⟨hlt, he⟩ | ⟨-, d, ds, he, -, hwidth⟩
    · rw [octets_cons, he] at h
      obtain ⟨rfl, -⟩ := List.cons.inj h
      rw [he, characterWidth, if_pos hlt]
      rfl
    · rw [octets_cons, he] at h
      obtain ⟨rfl, -⟩ := List.cons.inj h
      rw [he, hwidth, List.drop_left]

/-! ### What is passed over -/

/-- The first octet of a text, if it is ASCII, is its first character. -/
theorem head?_octets {c : CodePoint} {t : Text} (hw : c.isHalf = false) :
    ∃ b bs, octets (c :: t) = b :: bs ∧ (c.val < 0x80 ∨ b < 0x80 → b = c.val) := by
  rcases pointOctets_cases hw with ⟨-, he⟩ | ⟨hc, b, bs, he, hall, -⟩
  · exact ⟨c.val, octets t, by rw [octets_cons, he]; rfl, fun _ => rfl⟩
  · refine ⟨b, bs ++ octets t, by rw [octets_cons, he]; rfl, fun hlt => ?_⟩
    have hb := hall b List.mem_cons_self
    omega

/-- A text of one octet is one ASCII character. -/
theorem eq_singleton_of_octets {t : Text} (hw : IsWhole t)
    (h : (octets t).length = 1) : ∃ c, t = [c] ∧ c.val < 0x80 := by
  cases t with
  | nil => exact absurd h (by decide)
  | cons c t =>
    rw [isWhole_cons] at hw
    rw [octets_cons, List.length_append] at h
    rcases pointOctets_cases hw.1 with ⟨hlt, he⟩ | ⟨-, b, bs, he, hall, hwidth⟩
    · rw [he, List.length_singleton] at h
      have hnil := octets_eq_nil hw.2 (List.length_eq_zero_iff.1 (Nat.add_left_cancel h))
      exact ⟨c, by rw [hnil], hlt⟩
    · have htwo := two_le_characterWidth (hall b List.mem_cons_self)
      rw [he] at h
      omega

theorem isAsciiDigit_iff (c : Char) : isAsciiDigit c = true ↔ 48 ≤ c.toNat ∧ c.toNat ≤ 57 := by
  rw [isAsciiDigit, Bool.and_eq_true, decide_eq_true_iff, decide_eq_true_iff]
  exact Iff.rfl

/-- Octets that are passed over are those of characters that are. -/
theorem passes_of_octets {f : Option Fraction} {t : Text} (hw : IsWhole t)
    (h : PassesOctets f (octets t)) (filled : Prop) : Passes f filled t := by
  cases t with
  | nil => exact .inl rfl
  | cons c t =>
    obtain ⟨b, bs, ho, hb⟩ := head?_octets (t := t) (hw c List.mem_cons_self)
    rcases h with hnil | ⟨hf, hone⟩ | ⟨g, hf, hsix, hdigit⟩
    · cases ho.symm.trans hnil
    · obtain ⟨d, hd, hlt⟩ := eq_singleton_of_octets hw hone
      exact .inr (.inl ⟨hf, d, hd, .inl hlt⟩)
    · refine .inr (.inr ⟨g, hf, .inl hsix, fun d hd => ?_, hw⟩)
      obtain rfl := Option.some.inj hd
      rw [ho] at hdigit
      have hnone := hdigit b rfl
      refine eq_false_of_ne_true fun hascii => ?_
      rw [isAsciiDigit_iff, CodePoint.toNat_toChar (hw c List.mem_cons_self)] at hascii
      rw [hb (.inl (by omega)), digit?, if_pos hascii] at hnone
      cases hnone

theorem startsWithNull_of_octets {t : Text} (hw : IsWhole t)
    (h : (octets t).headD 0 = 0) : StartsWithNull t := by
  cases t with
  | nil => exact nofun
  | cons c t =>
    obtain ⟨b, bs, ho, hb⟩ := head?_octets (t := t) (hw c List.mem_cons_self)
    rw [ho, List.headD_cons] at h
    intro d hd
    obtain rfl := Option.some.inj hd
    rw [← hb (.inr (by omega)), h]

theorem val_mem_octets {t : Text} (hw : IsWhole t) {c : CodePoint} (hc : c ∈ t)
    (hlt : c.val < 0x80) : c.val ∈ octets t := by
  induction t with
  | nil => exact absurd hc List.not_mem_nil
  | cons d t ih =>
    rw [isWhole_cons] at hw
    rw [octets_cons, List.mem_append]
    rcases List.mem_cons.1 hc with rfl | hmem
    · rcases pointOctets_cases hw.1 with ⟨-, he⟩ | ⟨hle, -⟩
      · exact .inl (by rw [he]; exact List.mem_cons_self)
      · omega
    · exact .inr (ih hw.2 hmem)

theorem unsigned_of_octets {t : Text} (hw : IsWhole t)
    (h : ∀ b ∈ octets t, endsClock b = false) : ∀ c ∈ t, endsClock c.val = false := by
  intro c hc
  by_cases hlt : c.val < 0x80
  · exact h c.val (val_mem_octets hw hc hlt)
  · rw [endsClock, ← Bool.not_eq_true]
    simp only [Bool.or_eq_true, decide_eq_true_eq]
    omega

/-! ### The text that is read -/

/-- What stands after a time in the octets stands there in the text. -/
theorem exists_zone_of_octets {t : Text} (hw : IsWhole t) (h : IsTail (octets t)) :
    ∃ z : LooseZone, z.Fits ∧ z.text = t ∧ (z = .absent → octets t = []) ∧
      ∀ c ∈ t.head?, endsClock c.val = true := by
  generalize ho : octets t = tail at h
  have hcons {c : CodePoint} {rest : List Nat} (hc : c.val < 0x80)
      (heq : octets t = c.val :: rest) : ∃ v, t = c :: v ∧ octets v = rest :=
    eq_append_of_asciiOctets hw (u := [c]) (by simpa using hc) heq
  cases h with
  | absent =>
    obtain rfl := octets_eq_nil hw ho
    exact ⟨.absent, trivial, rfl, fun _ => rfl, nofun⟩
  | zulu hnull =>
    obtain ⟨v, rfl, rfl⟩ := hcons (by decide) ho
    rw [isWhole_cons] at hw
    refine ⟨.zuluThen v, ⟨startsWithNull_of_octets hw.2 hnull, hw.2⟩, rfl, nofun, fun c hc => ?_⟩
    obtain rfl := Option.some.inj hc
    rfl
  | offset negative c hpasses hnull =>
    obtain ⟨v, rfl, hv⟩ := hcons (by cases negative <;> decide) ho
    rw [isWhole_cons] at hw
    obtain ⟨w, rfl, rfl⟩ := eq_append_of_asciiOctets hw.2 (fun x hx => by
      have := c.mem_text hx
      omega) hv
    have hw' := (isWhole_append.1 hw.2).2
    refine ⟨.signed negative c w, ⟨passes_of_octets hw' hpasses False,
      startsWithNull_of_octets hw' hnull⟩, rfl, nofun, fun x hx => ?_⟩
    obtain rfl := Option.some.inj hx
    cases negative <;> rfl

/-- A text is cut where its octets are, before an octet that starts what stands after a time. -/
theorem exists_cut_of_octets {t : Text} (hw : IsWhole t) {passed tail : List Nat}
    (h : octets t = passed ++ tail) (htail : IsTail tail) :
    ∃ u v, t = u ++ v ∧ octets u = passed ∧ octets v = tail := by
  have hcut {b : Nat} {more : List Nat} (hb : b < 0x80) (heq : tail = b :: more) :
      ∃ u v, t = u ++ v ∧ octets u = passed ∧ octets v = tail := by
    rw [heq] at h
    obtain ⟨u, c, v, rfl, rfl, hu, hv⟩ := eq_append_of_octets hw hb h
    refine ⟨u, c :: v, rfl, hu, ?_⟩
    rcases pointOctets_cases (hw c (by simp)) with ⟨-, he⟩ | ⟨hle, -⟩
    · rw [octets_cons, he, hv, heq]
      rfl
    · omega
  cases htail with
  | absent => exact ⟨t, [], (List.append_nil t).symm, by rw [h, List.append_nil], rfl⟩
  | zulu => exact hcut (by decide) rfl
  | offset negative => exact hcut (by cases negative <;> decide) rfl

/-- **A text that is read is one that is written**, with what may be passed over. -/
theorem exists_form_of_instant? {t : Text} (hw : IsWhole t) {micros : Int}
    (h : instant? (octets t) = some micros) :
    (∃ d : DateForm, d.text = t) ∨ ∃ f : LooseForm, f.IsPrepared ∧ f.text = t := by
  obtain ⟨d, hd⟩ := instant?_eq_some h
  have hdate {rest : List Nat} (heq : octets t = asciiOctets d.text ++ rest) :
      ∃ v, t = d.text ++ v ∧ octets v = rest :=
    eq_append_of_asciiOctets hw (fun x hx => by have := d.mem_text hx; omega) heq
  rcases hd with hd | ⟨b, rest, time, offset, hd, ht⟩
  · obtain ⟨v, rfl, hv⟩ := hdate (hd.trans (List.append_nil _).symm)
    rw [isWhole_append] at hw
    rw [octets_eq_nil hw.2 hv, List.append_nil]
    exact .inl ⟨d, rfl⟩
  · obtain ⟨v, rfl, hv⟩ := hdate hd
    rw [isWhole_append] at hw
    obtain ⟨separator, w, rfl, hsep⟩ := exists_separator hw.2 hv
    obtain ⟨c, passed, tail, hw', hpasses, hunsigned, htail, hnull⟩ := time?_eq_some ht
    have hwide := (isWhole_cons.1 hw.2).2
    obtain ⟨y, rfl, hy⟩ := eq_append_of_asciiOctets hwide
      (fun x hx => by have := c.mem_text hx; omega) (hsep.trans hw')
    rw [isWhole_append] at hwide
    obtain ⟨u, z, rfl, rfl, rfl⟩ := exists_cut_of_octets hwide.2 hy htail
    rw [isWhole_append] at hwide
    obtain ⟨zone, hfits, rfl, habsent, hends⟩ := exists_zone_of_octets hwide.2.2 htail
    exact .inr ⟨⟨d, separator, c, u, zone⟩, ⟨⟨passes_of_octets hwide.2.1 hpasses _,
      unsigned_of_octets hwide.2.1 hunsigned, hfits,
      fun heq => startsWithNull_of_octets hwide.2.1 (hnull (habsent heq))⟩, hends⟩, rfl⟩

end Timestamp
end MachineCatalog
