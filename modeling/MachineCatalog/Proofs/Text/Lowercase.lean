/-
# Lower case between slashes

A slash has no case and is not passed over in the search for the letter next to a sigma, so
what stands beyond it has no influence: the parts of a path are put in lower case each by
itself (`lowercase_append_slash`).  Nothing but a letter becomes another character, and what
it becomes is a letter too, so no slash comes in (`slash_not_mem_lowercase`).
-/

import Mathlib.Tactic.SplitIfs
import MachineCatalog.Text.Lowercase

namespace MachineCatalog
namespace Text

/-- Small letters start with `a`. -/
theorem le_of_mem_capitalRuns {r : CapitalRun} (h : r ∈ capitalRuns) :
    97 ≤ (r.first : Int) + r.shift ∧ (r.last : Int) + r.shift < 0x110000 := by
  have hall : ∀ r ∈ capitalRuns,
      97 ≤ (r.first : Int) + r.shift ∧ (r.last : Int) + r.shift < 0x110000 := by decide +kernel
  exact hall r h

/-- A character that changes becomes a small letter. -/
theorem lowerChar_eq_or_le (c : CodePoint) : lowerChar c = c ∨ 97 ≤ (lowerChar c).val := by
  rw [lowerChar]
  split
  · exact .inl rfl
  · rename_i r hfind
    split_ifs
    · obtain ⟨hfirst, hlast⟩ := le_of_mem_capitalRuns (List.mem_of_find?_eq_some hfind)
      have hrange := List.find?_some hfind
      simp only [Bool.and_eq_true, decide_eq_true_eq] at hrange
      right
      have hsmall : ((c.val : Int) + r.shift).toNat < 0x110000 := by omega
      rw [CodePoint.ofNat, Fin.val_ofNat, Nat.mod_eq_of_lt hsmall]
      omega
    · exact .inl rfl

/-- What a character becomes; it matters to a sigma whether it ends a word. -/
def smallLetters (ending : Bool) (c : CodePoint) : Text :=
  if c = 'Σ' then if ending then ['ς'] else ['σ']
  else if c = 'İ' then ['i', .ofNat 0x307]
  else [lowerChar c]

theorem lowerFrom_cons (before : Text) (c : CodePoint) (rest : Text) :
    lowerFrom before (c :: rest) =
      smallLetters (nearestIsCased before && !nearestIsCased rest) c ++
        lowerFrom (c :: before) rest := rfl

/-- Nothing but a slash becomes one. -/
theorem slash_not_mem_smallLetters (ending : Bool) {c : CodePoint} (h : CodePoint.ofChar '/' ≠ c) :
    CodePoint.ofChar '/' ∉ smallLetters ending c := by
  rw [smallLetters]
  split_ifs
  · decide
  · decide
  · decide
  · rw [List.mem_singleton]
    intro heq
    rcases lowerChar_eq_or_le c with hsame | hletter
    · exact h (heq.trans hsame)
    · rw [← heq] at hletter
      exact absurd hletter (by decide)

theorem nearestIsCased_append_slash (s t : Text) :
    nearestIsCased (s ++ CodePoint.ofChar '/' :: t) = nearestIsCased s := by
  induction s with
  | nil =>
    have hstays : insideOf caseIgnorableChanges (CodePoint.ofChar '/') = false := by decide +kernel
    have hcase : insideOf casedChanges (CodePoint.ofChar '/') = false := by decide +kernel
    simp only [nearestIsCased, List.nil_append, List.dropWhile_cons, hstays, hcase,
      List.dropWhile_nil, Bool.false_eq_true, if_false]
  | cons c s ih =>
    simp only [nearestIsCased, List.cons_append, List.dropWhile_cons] at ih ⊢
    split_ifs
    · exact ih
    · rfl

/-- What stands before a slash has no influence on what follows. -/
theorem lowerFrom_append_slash (before above s : Text) :
    lowerFrom (before ++ CodePoint.ofChar '/' :: above) s = lowerFrom before s := by
  induction s generalizing before with
  | nil => rfl
  | cons c s ih =>
    rw [lowerFrom_cons, lowerFrom_cons, nearestIsCased_append_slash, ← List.cons_append, ih]

theorem lowerFrom_slash (before s t : Text) :
    lowerFrom before (s ++ CodePoint.ofChar '/' :: t) =
      lowerFrom before s ++ CodePoint.ofChar '/' :: lowercase t := by
  induction s generalizing before with
  | nil =>
    have hslash (ending : Bool) :
        smallLetters ending (CodePoint.ofChar '/') = [CodePoint.ofChar '/'] := by
      cases ending <;> decide +kernel
    have hrest : lowerFrom (CodePoint.ofChar '/' :: before) t = lowercase t :=
      lowerFrom_append_slash [] before t
    rw [List.nil_append, lowerFrom_cons, hslash, hrest]
    rfl
  | cons c s ih =>
    rw [List.cons_append, lowerFrom_cons, lowerFrom_cons, nearestIsCased_append_slash, ih,
      List.append_assoc]

/-- **The parts between slashes are put in lower case each by itself.** -/
theorem lowercase_append_slash (s t : Text) :
    lowercase (s ++ CodePoint.ofChar '/' :: t) =
      lowercase s ++ CodePoint.ofChar '/' :: lowercase t :=
  lowerFrom_slash [] s t

/-- A text without a slash has none in lower case. -/
theorem slash_not_mem_lowerFrom (before : Text) {s : Text} (h : CodePoint.ofChar '/' ∉ s) :
    CodePoint.ofChar '/' ∉ lowerFrom before s := by
  induction s generalizing before with
  | nil => exact List.not_mem_nil
  | cons c s ih =>
    rw [List.mem_cons, not_or] at h
    rw [lowerFrom_cons, List.mem_append, not_or]
    exact ⟨slash_not_mem_smallLetters _ h.1, ih _ h.2⟩

theorem slash_not_mem_lowercase {s : Text} (h : CodePoint.ofChar '/' ∉ s) :
    CodePoint.ofChar '/' ∉ lowercase s :=
  slash_not_mem_lowerFrom [] h

end Text
end MachineCatalog
