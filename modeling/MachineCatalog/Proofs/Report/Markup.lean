/-
# Markup of a page

What a page is to a browser is decided by its delimiters, the angle brackets and quotes
(`marks`), by its character entities (`EntitiesOnly`), and by the targets of its links
(`links`).  A page is put together from fixed texts and escaped ones.  An escaped text
contributes nothing to any of the three: it has no delimiters, each `&` in it starts an
entity, and no link starts in it or is cut short by it (`marks_escape`, `Adds.escape`).

What text adds to a page does not depend on what stands behind it (`Adds`), and adding up the
parts gives the page (`Adds.append`, `AddsLines.intercalate`).
-/

import MachineCatalog.Proofs.Numeral
import MachineCatalog.Report.Html

namespace MachineCatalog
namespace Report
namespace Html

/-! ### Delimiters -/

/-- A code point that opens or closes a tag or the value of an attribute. -/
def isDelimiter (c : CodePoint) : Bool := c = '<' || c = '>' || c = '"' || c = '\''

/-- The delimiters of a text, in order. -/
def marks (t : Text) : Text := t.filter isDelimiter

@[simp] theorem marks_append (s t : Text) : marks (s ++ t) = marks s ++ marks t :=
  List.filter_append ..

theorem escaped_eq_self {c : CodePoint} (h : c ≠ '&') (hc : isDelimiter c = false) :
    escaped c = [c] := by
  simp only [isDelimiter, Bool.or_eq_false_iff, decide_eq_false_iff_not] at hc
  obtain ⟨⟨⟨hlt, hgt⟩, hquote⟩, hapostrophe⟩ := hc
  rw [escaped, if_neg h, if_neg hlt, if_neg hgt, if_neg hapostrophe, if_neg hquote]

/-- How the reserved code points are written. -/
def entities : List Text := ["&amp;", "&lt;", "&gt;", "&#39;", "&#34;"]

/-- A code point is written as it stands, or as an entity when it is reserved. -/
theorem escaped_cases (c : CodePoint) :
    escaped c ∈ entities ∨ escaped c = [c] ∧ c ≠ '&' ∧ isDelimiter c = false := by
  by_cases hamp : c = '&'
  · subst hamp
    exact .inl (by decide)
  · cases hc : isDelimiter c with
    | false => exact .inr ⟨escaped_eq_self hamp hc, hamp, rfl⟩
    | true =>
      simp only [isDelimiter, Bool.or_eq_true, decide_eq_true_iff] at hc
      rcases hc with ((rfl | rfl) | rfl) | rfl
      · exact .inl (by decide)
      · exact .inl (by decide)
      · exact .inl (by decide)
      · exact .inl (by decide)

/-- **An escaped text has no delimiters.** -/
@[simp] theorem marks_escape (s : Text) : marks (escape s) = [] := by
  have hentities : ∀ e ∈ entities, marks e = [] := by decide
  induction s with
  | nil => rfl
  | cons c s ih =>
    have hc : marks (escaped c) = [] := by
      rcases escaped_cases c with he | ⟨he, -, hd⟩
      · exact hentities _ he
      · rw [he, marks, List.filter_cons_of_neg (by simp [hd]), List.filter_nil]
    show marks (escaped c ++ escape s) = []
    rw [marks_append, hc, ih, List.append_nil]

theorem escape_append (s t : Text) : escape (s ++ t) = escape s ++ escape t :=
  List.flatMap_append ..

/-- Digits stand for themselves. -/
theorem escape_decimal (n : Nat) : escape (Text.decimal n) = Text.decimal n := by
  have hdigit : ∀ d : Fin 10, escaped (Text.digit d) = [Text.digit d] := by decide
  rw [Text.decimal_eq_map_digit]
  induction Text.places (Nat.toDigits 10 n).length n with
  | nil => rfl
  | cons d ds ih =>
    show escaped (Text.digit d) ++ escape (ds.map Text.digit) = _
    rw [hdigit, ih]
    rfl

/-- A page has the delimiters of its lines. -/
theorem marks_intercalate (lines : List Text) :
    marks (List.intercalate "\n" lines) = lines.flatMap marks := by
  have hfeed : marks "\n" = [] := by decide
  induction lines with
  | nil => rfl
  | cons line lines ih =>
    cases lines with
    | nil => rw [List.intercalate_singleton, List.flatMap_singleton]
    | cons next lines =>
      rw [List.intercalate_cons_cons, marks_append, marks_append, hfeed, ih, List.append_nil]
      rfl

/-! ### Character entities -/

/-- Every ampersand of the text starts a character entity. -/
def EntitiesOnly (t : Text) : Prop :=
  ∀ before after, t = before ++ CodePoint.ofChar '&' :: after →
    ∃ e ∈ entities, e <+: CodePoint.ofChar '&' :: after

theorem entitiesOnly_of_not_mem {t : Text} (h : CodePoint.ofChar '&' ∉ t) : EntitiesOnly t := by
  rintro before after rfl
  exact absurd (List.mem_append_right _ List.mem_cons_self) h

/-- What stands behind an ampersand is not needed to see its entity. -/
theorem EntitiesOnly.append {s t : Text} (hs : EntitiesOnly s) (ht : EntitiesOnly t) :
    EntitiesOnly (s ++ t) := by
  intro before after h
  rcases List.append_eq_append_iff.1 h with ⟨middle, rfl, hmiddle⟩ | ⟨middle, rfl, hmiddle⟩
  · exact ht middle after hmiddle
  · cases middle with
    | nil => exact ht [] after hmiddle.symm
    | cons c middle =>
      obtain ⟨rfl, rfl⟩ := List.cons.inj hmiddle
      obtain ⟨e, he, hprefix⟩ := hs before middle rfl
      exact ⟨e, he, hprefix.trans (List.prefix_append (CodePoint.ofChar '&' :: middle) t)⟩

theorem entitiesOnly_of_mem_entities {e : Text} (he : e ∈ entities) : EntitiesOnly e := by
  have htail : ∀ e ∈ entities, e.head? = some (CodePoint.ofChar '&') ∧
      CodePoint.ofChar '&' ∉ e.tail := by decide
  obtain ⟨-, hnot⟩ := htail e he
  intro before after h
  cases before with
  | nil => exact ⟨e, he, by rw [h]; exact List.prefix_refl _⟩
  | cons c before =>
    rw [h] at hnot
    exact absurd (List.mem_append_right _ List.mem_cons_self) hnot

/-- **In an escaped text every ampersand starts an entity.** -/
theorem entitiesOnly_escape (s : Text) : EntitiesOnly (escape s) := by
  induction s with
  | nil => exact entitiesOnly_of_not_mem List.not_mem_nil
  | cons c s ih =>
    refine EntitiesOnly.append ?_ ih
    rcases escaped_cases c with he | ⟨he, hamp, -⟩
    · exact entitiesOnly_of_mem_entities he
    · rw [he]
      exact entitiesOnly_of_not_mem (by simpa using hamp.symm)

/-! ### Links -/

/-- What stands before the target of a link. -/
def linkStart : Text := "<a href=\""

/-- The targets of the links of a page, in order: what stands behind `<a href="` up to the next
quote. -/
def links : Text → List Text
  | [] => []
  | c :: rest =>
    if linkStart <+: c :: rest then
      ((c :: rest).drop linkStart.length).takeWhile (· ≠ CodePoint.ofChar '"') :: links rest
    else links rest

/-- No link starts in the text, also not with its last code points. -/
def opensNoLink : Text → Bool
  | [] => true
  | c :: rest => !(linkStart <+: c :: rest) && !(c :: rest <+: linkStart) && opensNoLink rest

theorem links_append_of_opensNoLink {s : Text} (h : opensNoLink s = true) (t : Text) :
    links (s ++ t) = links t := by
  induction s with
  | nil => rfl
  | cons c s ih =>
    simp only [opensNoLink, Bool.and_eq_true, Bool.not_eq_true', decide_eq_false_iff_not] at h
    obtain ⟨⟨hstart, hends⟩, hrest⟩ := h
    have hnot : ¬linkStart <+: c :: (s ++ t) := by
      intro hp
      rcases List.prefix_or_prefix_of_prefix hp (List.prefix_append (c :: s) t) with hl | hl
      · exact hstart hl
      · exact hends hl
    rw [List.cons_append, links, if_neg hnot, ih hrest]

theorem links_linkStart (t : Text) : links (linkStart ++ t) =
    t.takeWhile (· ≠ CodePoint.ofChar '"') :: links t := by
  have hprefix : linkStart <+: CodePoint.ofChar '<' :: (linkStart.tail ++ t) :=
    List.prefix_append linkStart t
  have hdrop : (CodePoint.ofChar '<' :: (linkStart.tail ++ t)).drop linkStart.length = t :=
    List.drop_left
  have htail : opensNoLink linkStart.tail = true := by decide
  show links (CodePoint.ofChar '<' :: (linkStart.tail ++ t)) = _
  rw [links, if_pos hprefix, hdrop, links_append_of_opensNoLink htail]

theorem opensNoLink_of_not_mem {t : Text} (h : CodePoint.ofChar '<' ∉ t) :
    opensNoLink t = true := by
  induction t with
  | nil => rfl
  | cons c t ih =>
    obtain ⟨hc, ht⟩ := not_or.1 (fun hm => h (List.mem_cons.2 hm))
    have hl : linkStart = CodePoint.ofChar '<' :: linkStart.tail := rfl
    have hstart : ¬linkStart <+: c :: t := by
      rw [hl, List.cons_prefix_cons]
      exact fun hp => hc hp.1
    have hends : ¬c :: t <+: linkStart := by
      rw [hl, List.cons_prefix_cons]
      exact fun hp => hc hp.1.symm
    simp only [opensNoLink, hstart, hends, ih ht, decide_false, Bool.not_false, Bool.and_self]

/-! ### What a text adds to a page -/

/-- Whatever stands behind it, the text adds links with the given targets, and no ampersands but
those of entities. -/
structure Adds (t : Text) (targets : List Text) : Prop where
  entities : EntitiesOnly t
  links : ∀ rest, links (t ++ rest) = targets ++ links rest

theorem Adds.append {s t : Text} {first second : List Text} (hs : Adds s first)
    (ht : Adds t second) : Adds (s ++ t) (first ++ second) := by
  refine ⟨hs.entities.append ht.entities, fun rest => ?_⟩
  rw [List.append_assoc, hs.links, ht.links, List.append_assoc]

/-- A text is plain when it has no ampersands and no link starts in it. -/
def IsPlain (t : Text) : Prop := CodePoint.ofChar '&' ∉ t ∧ opensNoLink t = true

instance (t : Text) : Decidable (IsPlain t) := inferInstanceAs (Decidable (_ ∧ _))

theorem IsPlain.adds {t : Text} (h : IsPlain t) : Adds t [] :=
  ⟨entitiesOnly_of_not_mem h.1, links_append_of_opensNoLink h.2⟩

theorem not_mem_escape {c : CodePoint} (hc : isDelimiter c = true) (s : Text) : c ∉ escape s := by
  intro hm
  have hmarks : c ∈ marks (escape s) := List.mem_filter.2 ⟨hm, hc⟩
  rw [marks_escape] at hmarks
  exact absurd hmarks List.not_mem_nil

/-- **An escaped text adds nothing to a page.** -/
theorem adds_escape (s : Text) : Adds (escape s) [] :=
  ⟨entitiesOnly_escape s,
    links_append_of_opensNoLink (opensNoLink_of_not_mem (not_mem_escape (by decide) s))⟩

/-- **A link has the target that is written into it.** -/
theorem adds_link (s : Text) : Adds (linkStart ++ escape s ++ "\"") [escape s] := by
  have hentities : EntitiesOnly (linkStart ++ escape s ++ "\"") :=
    ((entitiesOnly_of_not_mem (by decide)).append (entitiesOnly_escape s)).append
      (entitiesOnly_of_not_mem (by decide))
  refine ⟨hentities, fun rest => ?_⟩
  have htarget : (escape s ++ CodePoint.ofChar '"' :: rest).takeWhile
      (· ≠ CodePoint.ofChar '"') = escape s := by
    rw [List.takeWhile_append_of_pos, List.takeWhile_cons_of_neg (by simp), List.append_nil]
    intro c hc
    rw [decide_eq_true_iff]
    rintro rfl
    exact not_mem_escape (by decide) s hc
  have hrest : links (escape s ++ CodePoint.ofChar '"' :: rest) = links rest := by
    rw [(adds_escape s).links]
    exact links_append_of_opensNoLink (s := "\"") (by decide) rest
  have hsplit : linkStart ++ escape s ++ "\"" ++ rest =
      linkStart ++ (escape s ++ CodePoint.ofChar '"' :: rest) := by
    rw [List.append_assoc, List.append_assoc]
    rfl
  rw [hsplit, links_linkStart, htarget, hrest]
  rfl

/-! ### Lines -/

/-- What lines add to a page. -/
inductive AddsLines : List Text → List Text → Prop
  | nil : AddsLines [] []
  | cons {line : Text} {lines first rest : List Text} (hline : Adds line first)
    (hlines : AddsLines lines rest) : AddsLines (line :: lines) (first ++ rest)

theorem AddsLines.append {lines more first second : List Text} (h : AddsLines lines first)
    (hmore : AddsLines more second) : AddsLines (lines ++ more) (first ++ second) := by
  induction h with
  | nil => exact hmore
  | cons hline _ ih =>
    rw [List.append_assoc]
    exact .cons hline ih

theorem addsLines_of_isPlain {lines : List Text} (h : ∀ line ∈ lines, IsPlain line) :
    AddsLines lines [] := by
  induction lines with
  | nil => exact .nil
  | cons line lines ih =>
    rw [List.forall_mem_cons] at h
    exact .cons h.1.adds (ih h.2)

theorem addsLines_flatMap {α : Type} {f g : α → List Text} (xs : List α)
    (h : ∀ x ∈ xs, AddsLines (f x) (g x)) : AddsLines (xs.flatMap f) (xs.flatMap g) := by
  induction xs with
  | nil => exact .nil
  | cons x xs ih =>
    rw [List.forall_mem_cons] at h
    rw [List.flatMap_cons, List.flatMap_cons]
    exact h.1.append (ih h.2)

/-- **A page has the links of its lines**, and their entities. -/
theorem AddsLines.intercalate {lines targets : List Text} (h : AddsLines lines targets) :
    Adds (List.intercalate "\n" lines) targets := by
  have hfeed : IsPlain "\n" := by decide
  induction h with
  | nil => exact ⟨entitiesOnly_of_not_mem List.not_mem_nil, fun rest => rfl⟩
  | @cons line lines first rest hline hlines ih =>
    cases lines with
    | nil =>
      cases hlines
      rw [List.append_nil, List.intercalate_singleton]
      exact hline
    | cons next lines =>
      have hfirst : Adds (line ++ "\n") first := by
        have hadds := hline.append hfeed.adds
        rwa [List.append_nil] at hadds
      rw [List.intercalate_cons_cons]
      exact hfirst.append ih

end Html
end Report
end MachineCatalog
