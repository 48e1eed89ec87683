/-
# Marks that fit together

A text without brackets and backslashes is shown as it stands (`Markup.show?_of_isFree`).  A
tag is taken by itself, with any text behind it (`Markup.showBehind?_tag`), and so a style
that is opened and closed around a text shows nothing but the text
(`Markup.showBehind?_styled`).

Hence a terminal shows every notice in which names and messages are free of brackets and
backslashes, and shows it without its marks (`Notice.show?_text`).  It takes a bracket in one
of these to have a notice refused.
-/

import MachineCatalog.Notice
import MachineCatalog.Proofs.SelfLink
import Mathlib.Data.List.TakeWhile

namespace MachineCatalog

theorem Text.splitAt_append_of_not_mem {α : Type} [BEq α] [LawfulBEq α] {separator : α}
    {s t first : List α} {more : List (List α)} (h : separator ∉ s)
    (ht : splitAt separator t = first :: more) :
    splitAt separator (s ++ t) = (s ++ first) :: more := by
  induction s with
  | nil => exact ht
  | cons c s ih =>
    rw [List.mem_cons, not_or] at h
    rw [List.cons_append, splitAt, ih h.2, if_neg (by simpa using Ne.symm h.1)]
    rfl

namespace Markup

/-- The text has no brackets that open, and no backslashes. -/
def IsFree (t : Text) : Prop := ∀ c ∈ t, c ≠ CodePoint.ofChar '[' ∧ c ≠ CodePoint.ofChar '\\'

instance (t : Text) : Decidable (IsFree t) :=
  decidable_of_iff ((t.all fun c => c ≠ CodePoint.ofChar '[' && c ≠ CodePoint.ofChar '\\') = true)
    (by simp [IsFree])

theorem IsFree.not_mem {t : Text} (h : IsFree t) : CodePoint.ofChar '[' ∉ t :=
  fun hm => (h _ hm).1 rfl

theorem IsFree.append {s t : Text} (hs : IsFree s) (ht : IsFree t) : IsFree (s ++ t) :=
  List.forall_mem_append.2 ⟨hs, ht⟩

theorem plain_of_isFree {t : Text} (h : IsFree t) : plain t = t := by
  induction t with
  | nil => rfl
  | cons c t ih =>
    rw [IsFree, List.forall_mem_cons] at h
    rw [plain, if_neg (by simp [h.1.2]), ih h.2]

theorem slashCount_of_isFree {t : Text} (h : IsFree t) : slashCount t = 0 := by
  have hnone : (t.reverse.takeWhile fun c => c = CodePoint.ofChar '\\') = [] := by
    cases hr : t.reverse with
    | nil => rfl
    | cons c s =>
      have hc : c ∈ t := List.mem_reverse.1 (hr ▸ List.mem_cons_self)
      rw [List.takeWhile_cons_of_neg (by simpa using (h c hc).2)]
  rw [slashCount]
  simp only [hnone, List.length_nil]

theorem front_of_isFree {t : Text} (h : IsFree t) : front t = t := by
  rw [front, slashCount_of_isFree h, Nat.sub_zero, List.take_length, plain_of_isFree h]
  exact List.append_nil t

/-! ### What is shown behind a text -/

/-- What is shown of a text behind `before`, which has no tag. -/
def showBehind? (opened : List Text) (before t : Text) : Option Text :=
  match Text.splitAt (CodePoint.ofChar '[') t with
  | [] => none
  | first :: pieces => showPieces? opened (before ++ first) pieces

theorem show?_eq (t : Text) : show? t = showBehind? [] [] t := by
  rw [show?, showBehind?]
  cases hs : Text.splitAt (CodePoint.ofChar '[') t with
  | nil => exact absurd hs (Text.splitAt_ne_nil _ t)
  | cons first pieces => rfl

theorem showBehind?_nil (opened : List Text) (before : Text) :
    showBehind? opened before [] = some (plain before) := by
  rw [showBehind?]
  show showPieces? opened (before ++ []) [] = _
  rw [List.append_nil, showPieces?]

theorem showBehind?_append {s : Text} (h : IsFree s) (opened : List Text) (before t : Text) :
    showBehind? opened before (s ++ t) = showBehind? opened (before ++ s) t := by
  obtain ⟨first, pieces, ht⟩ :=
    List.exists_cons_of_ne_nil (Text.splitAt_ne_nil (CodePoint.ofChar '[') t)
  rw [showBehind?, showBehind?, ht, Text.splitAt_append_of_not_mem h.not_mem ht]
  simp only [List.append_assoc]

/-- A tag: it starts as one, and no bracket stands in it. -/
structure IsTag (tag : Text) : Prop where
  starts : tag.head?.any startsTag = true
  unopened : CodePoint.ofChar '[' ∉ tag
  unclosed : CodePoint.ofChar ']' ∉ tag

instance (tag : Text) : Decidable (IsTag tag) :=
  decidable_of_iff ((tag.head?.any startsTag && !tag.contains (CodePoint.ofChar '[') &&
      !tag.contains (CodePoint.ofChar ']')) = true) (by
    rw [Bool.and_eq_true, Bool.and_eq_true, Bool.not_eq_true', Bool.not_eq_true',
      List.contains_eq_mem, List.contains_eq_mem, decide_eq_false_iff_not, decide_eq_false_iff_not]
    exact ⟨fun h => ⟨h.1.1, h.1.2, h.2⟩, fun h => ⟨⟨h.starts, h.unopened⟩, h.unclosed⟩⟩)

theorem IsTag.tag?_eq {tag : Text} (h : IsTag tag) (behind : Text) :
    tag? (tag ++ CodePoint.ofChar ']' :: behind) = some (tag, behind) := by
  obtain ⟨c, hhead, hc⟩ := (Option.any_eq_true _ _).1 h.starts
  obtain ⟨rest, rfl⟩ := List.head?_eq_some_iff.1 hhead
  have hrest : ∀ d ∈ rest, isInside d = true := by
    intro d hd
    have hne : d ≠ CodePoint.ofChar ']' := fun he => h.unclosed (he ▸ List.mem_cons_of_mem c hd)
    simpa [isInside] using hne
  have hend : isInside (CodePoint.ofChar ']') = false := by decide
  rw [List.cons_append, tag?, List.dropWhile_append_of_pos hrest,
    List.dropWhile_cons_of_neg (by simp [hend])]
  simp only [hc, if_true, List.takeWhile_append_of_pos hrest,
    List.takeWhile_cons_of_neg (show ¬isInside (CodePoint.ofChar ']') = true by simp [hend]),
    List.append_nil]

/-- **A tag is followed**, whatever stands behind it. -/
theorem showBehind?_tag {before tag : Text} (hbefore : IsFree before) (h : IsTag tag)
    (opened : List Text) (t : Text) :
    showBehind? opened before (("[" : Text) ++ tag ++ "]" ++ t) =
      (follow? opened tag).bind fun opened => (showBehind? opened [] t).map (before ++ ·) := by
  obtain ⟨first, pieces, ht⟩ :=
    List.exists_cons_of_ne_nil (Text.splitAt_ne_nil (CodePoint.ofChar '[') t)
  have htag : CodePoint.ofChar '[' ∉ tag ++ ("]" : Text) := by
    rw [List.mem_append, not_or]
    exact ⟨h.unopened, by decide⟩
  have hsplit : Text.splitAt (CodePoint.ofChar '[') (("[" : Text) ++ tag ++ "]" ++ t) =
      [] :: (tag ++ CodePoint.ofChar ']' :: first) :: pieces := by
    have hwhole : (("[" : Text) ++ tag ++ "]" ++ t : Text) =
        [] ++ CodePoint.ofChar '[' :: (tag ++ ("]" : Text) ++ t) := by
      rw [List.append_assoc, List.append_assoc, List.append_assoc]
      rfl
    rw [hwhole, Text.splitAt_append_cons, Text.splitAt_append_of_not_mem htag ht,
      List.append_assoc]
    rfl
  rw [showBehind?, hsplit]
  show showPieces? opened (before ++ []) _ = _
  rw [List.append_nil, showPieces?, h.tag?_eq]
  simp only [slashCount_of_isFree hbefore, front_of_isFree hbefore, showBehind?, ht]
  cases follow? opened tag with
  | none => rfl
  | some opened =>
    show (showPieces? opened first pieces).bind _ = (showPieces? opened ([] ++ first) pieces).map _
    rw [List.nil_append, Option.map_eq_bind]
    rfl

/-! ### Styles -/

/-- The style has an ordinary name: it starts with a letter, has no brackets and says nothing
more of the style. -/
structure IsStyle (style : Text) : Prop where
  tag : IsTag style
  unslashed : style.startsWith "/" = false
  named : styleName style ≠ []
  bare : CodePoint.ofChar '=' ∉ style

instance (style : Text) : Decidable (IsStyle style) :=
  decidable_of_iff (IsTag style ∧ (!style.startsWith "/" && !(styleName style).isEmpty &&
      !style.contains (CodePoint.ofChar '=')) = true) (by
    rw [Bool.and_eq_true, Bool.and_eq_true, Bool.not_eq_true', Bool.not_eq_true', Bool.not_eq_true',
      List.contains_eq_mem, decide_eq_false_iff_not, List.isEmpty_eq_false_iff]
    exact ⟨fun h => ⟨h.1, h.2.1.1, h.2.1.2, h.2.2⟩,
      fun h => ⟨h.tag, ⟨h.unslashed, h.named⟩, h.bare⟩⟩)

theorem IsStyle.takeWhile_eq {style : Text} (h : IsStyle style) :
    (style.takeWhile fun c => c ≠ CodePoint.ofChar '=') = style := by
  refine List.takeWhile_eq_self_iff.2 fun c hc => ?_
  have hne : c ≠ CodePoint.ofChar '=' := fun he => h.bare (he ▸ hc)
  simpa using hne

/-- A style is opened, and closed again. -/
theorem IsStyle.follow?_eq {style : Text} (h : IsStyle style) (opened : List Text) :
    follow? opened style = some (styleName style :: opened) ∧
      follow? (styleName style :: opened) ("/" ++ style) = some opened := by
  have hname := h.takeWhile_eq
  have hclosing : (("/" ++ style : Text).takeWhile fun c => c ≠ CodePoint.ofChar '=') =
      "/" ++ style := by
    show (CodePoint.ofChar '/' :: style).takeWhile _ = _
    rw [List.takeWhile_cons_of_pos (by decide), hname]
    rfl
  constructor
  · simp only [follow?, hname, h.unslashed, Bool.false_eq_true, if_false]
  · have hslash : Text.startsWith ("/" ++ style) "/" = true := rfl
    have hdrop : (("/" ++ style : Text)).drop 1 = style := rfl
    have hnamed : (styleName style).isEmpty = false := by simpa using h.named
    simp only [follow?, hclosing, hslash, hdrop, hnamed, if_true, Bool.false_eq_true, if_false,
      List.contains_cons, beq_self_eq_true, Bool.true_or, List.erase_cons_head]

theorem IsTag.closing {tag : Text} (h : IsTag tag) : IsTag ("/" ++ tag) where
  starts := rfl
  unopened := by
    rw [List.mem_append, not_or]
    exact ⟨by decide, h.unopened⟩
  unclosed := by
    rw [List.mem_append, not_or]
    exact ⟨by decide, h.unclosed⟩

/-- **A text in a style is shown without its marks.** -/
theorem showBehind?_styled {before style text : Text} (hbefore : IsFree before)
    (hstyle : IsStyle style) (htext : IsFree text) (opened : List Text) (t : Text) :
    showBehind? opened before (styled style text ++ t) =
      (showBehind? opened [] t).map fun shown => before ++ text ++ shown := by
  have hwhole : styled style text ++ t =
      ("[" : Text) ++ style ++ "]" ++ (text ++ (("[" : Text) ++ ("/" ++ style) ++ "]" ++ t)) := by
    simp only [styled, List.append_assoc]
    rfl
  obtain ⟨hopen, hclose⟩ := hstyle.follow?_eq opened
  rw [hwhole, showBehind?_tag hbefore hstyle.tag, hopen, Option.bind_some,
    showBehind?_append htext, List.nil_append, showBehind?_tag htext hstyle.tag.closing, hclose,
    Option.bind_some, Option.map_map]
  simp only [Function.comp_def, List.append_assoc]

/-- **A text without brackets and backslashes is shown as it stands.** -/
theorem show?_of_isFree {t : Text} (h : IsFree t) : show? t = some t := by
  have hbehind := showBehind?_append h [] [] []
  rw [List.append_nil, List.nil_append, showBehind?_nil, plain_of_isFree h] at hbehind
  rw [show?_eq, hbehind]

end Markup

namespace Notice

open Markup (IsFree IsStyle IsTag show? showBehind? showBehind?_append showBehind?_nil
  showBehind?_styled show?_eq plain_of_isFree)

/-- The text of a part without marks. -/
def Piece.unmarked : Piece → Text
  | .plain text => text
  | .styled _ text => text

/-- The style of a part has an ordinary name, if it has one. -/
def Piece.IsStyled : Piece → Prop
  | .plain _ => True
  | .styled style _ => IsStyle style

/-- A message without marks. -/
def plainText (c : Console) (n : Notice) : Text := ((n.pieces c).map Piece.unmarked).flatten

/-- Parts of a message are shown one after the other. -/
theorem showBehind?_marked {ps : List Piece} (hstyled : ∀ p ∈ ps, p.IsStyled)
    (hfree : ∀ p ∈ ps, IsFree p.unmarked) {before : Text} (hbefore : IsFree before) :
    showBehind? [] before (ps.map Piece.marked).flatten =
      some (before ++ (ps.map Piece.unmarked).flatten) := by
  induction ps generalizing before with
  | nil =>
    show showBehind? [] before [] = some (before ++ [])
    rw [showBehind?_nil, plain_of_isFree hbefore, List.append_nil]
  | cons p ps ih =>
    rw [List.forall_mem_cons] at hstyled hfree
    rw [List.map_cons, List.map_cons, List.flatten_cons, List.flatten_cons]
    cases p with
    | plain text =>
      have htext : IsFree text := hfree.1
      show showBehind? [] before (text ++ _) = some (before ++ (text ++ _))
      rw [showBehind?_append htext, ih hstyled.2 hfree.2 (hbefore.append htext),
        List.append_assoc]
    | styled style text =>
      have htext : IsFree text := hfree.1
      show showBehind? [] before (Markup.styled style text ++ _) = some (before ++ (text ++ _))
      rw [showBehind?_styled hbefore hstyled.1 htext,
        ih hstyled.2 hfree.2 (List.forall_mem_nil _), Option.map_some, List.nil_append,
        List.append_assoc]

theorem isStyle_of_mem :
    ∀ style ∈ (["yellow", "dim", "red", "bold"] : List Text), IsStyle style := by
  decide +kernel

/-- The styles of notices have ordinary names. -/
theorem isStyled_of_mem_pieces (c : Console) (n : Notice) : ∀ p ∈ n.pieces c, p.IsStyled := by
  have hwarning (t : Text) : ∀ p ∈ warning t, p.IsStyled :=
    List.forall_mem_cons.2 ⟨isStyle_of_mem _ (by decide), by simp [Piece.IsStyled]⟩
  have htrouble (title t : Text) : ∀ p ∈ trouble title t, p.IsStyled :=
    List.forall_mem_cons.2 ⟨isStyle_of_mem _ (by decide), by simp [Piece.IsStyled]⟩
  have hbold : IsStyle "bold" := isStyle_of_mem _ (by decide)
  cases n with
  | unrecognised source =>
    exact List.forall_mem_cons.2 ⟨isStyle_of_mem _ (by decide), by simp [Piece.IsStyled]⟩
  | noneFound => exact List.forall_mem_singleton.2 (isStyle_of_mem _ (by decide))
  | found count => simpa [pieces, Piece.IsStyled] using hbold
  | written file => simpa [pieces, Piece.IsStyled] using hbold
  | mappingError why => exact htrouble _ _
  | unwritable file => exact htrouble _ _
  | noProject => exact htrouble _ _
  | moveFailed message => exact htrouble _ _
  | _ => exact hwarning _

/-- **A terminal shows a notice without its marks**, unless the names and messages in it have
marks of their own. -/
theorem show?_text {c : Console} {n : Notice} (h : ∀ p ∈ n.pieces c, IsFree p.unmarked) :
    show? (n.text c) = some (n.plainText c) := by
  rw [show?_eq, text, showBehind?_marked (isStyled_of_mem_pieces c n) h (List.forall_mem_nil _),
    List.nil_append, plainText]

theorem shows_terminal {reason : Text → Obstacle → Text} {n : Notice}
    (h : ∀ p ∈ n.pieces (.terminal reason), IsFree p.unmarked) :
    (Console.terminal reason).shows n = true := by
  show (show? _).isSome = true
  rw [show?_text h]
  rfl

end Notice

/-- A terminal, and there the words of a YAML reader for a list that starts a file and goes on to
its end. -/
def Console.atUnclosedList : Console := .terminal fun file _ =>
  "while parsing a flow sequence\n  in \"" ++ file ++ "\", line 1, column 1\n" ++
    "expected ',' or ']', but got '<stream end>'\n  in \"" ++ file ++ "\", line 2, column 1"

end MachineCatalog
