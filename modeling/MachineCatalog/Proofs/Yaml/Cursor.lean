/-
# Readers of a stream with a fault

When something is wrong behind the text of a stream, a place in the text is never at the end of
the stream: the reader fails as soon as it looks behind the text (`Cursor.Faulty.here_ne`).  That
does not change by passing characters, and passing characters is all that the readers of names,
tags and scalars do.  So after each of them the place is still such a place.

What a computation returns when it does not fail is said by `Returns`; what is shown of the first
of two computations may be used for the second (`Returns.bind`).
-/

import MachineCatalog.Proofs.Failure
import MachineCatalog.Yaml.PropertyText
import MachineCatalog.Yaml.ScalarText

namespace MachineCatalog
namespace Yaml

/-! ### What a computation returns -/

section Returns

variable {α β : Type} {P : β → Prop} {Q : α → Prop}

/-- Whatever the computation returns has the property. -/
def Returns (Q : α → Prop) (x : Except Problem α) : Prop := ∀ a, x = .ok a → Q a

theorem returns_ok {a : α} (h : Q a) : Returns Q (.ok a) := by
  rintro b hb
  exact Except.ok.inj hb ▸ h

theorem returns_error (p : Problem) : Returns Q (.error p) := nofun

theorem Returns.bind {x : Except Problem β} {f : β → Except Problem α} (hx : Returns P x)
    (hf : ∀ b, P b → Returns Q (f b)) : Returns Q (x >>= f) := by
  rintro a ha
  obtain ⟨b, hb, hfa⟩ := bind_eq_ok_iff.1 ha
  exact hf b (hx b hb) a hfa

/-- What the first computation returns need not be known. -/
theorem returns_bind {x : Except Problem β} {f : β → Except Problem α}
    (hf : ∀ b, x = .ok b → Returns Q (f b)) : Returns Q (x >>= f) := by
  rintro a ha
  obtain ⟨b, hb, hfa⟩ := bind_eq_ok_iff.1 ha
  exact hf b hb a hfa

theorem returns_ite {p : Prop} [Decidable p] {x y : Except Problem α} (hx : Returns Q x)
    (hy : Returns Q y) : Returns Q (if p then x else y) := by
  split_ifs
  · exact hx
  · exact hy

/-- Something may be looked at first. -/
theorem returns_after {p : Prop} [Decidable p] {x : Except Problem Unit}
    {f : Unit → Except Problem α} (hf : Returns Q (f ())) :
    Returns Q (if p then x >>= f else f ()) :=
  returns_ite (returns_bind fun _ _ => hf) hf

end Returns

namespace Cursor

/-- Something is wrong behind the text, and no NUL is in the text. -/
structure Faulty (c : Cursor) : Prop where
  beyond : c.beyond ≠ none
  left : c.left = c.rest.length
  rest : '\x00' ∉ c.rest

section Faulty

variable {c : Cursor}

/-- **Where a character can be looked at there is one.** -/
theorem Faulty.here_ne (h : c.Faulty) (hlook : c.look 0 = .ok ()) : c.here ≠ '\x00' := by
  have hleft : ¬c.left ≤ 0 := by
    intro hle
    unfold look at hlook
    split at hlook
    · rename_i hnone
      exact h.beyond hnone
    · rw [if_pos hle] at hlook
      cases hlook
  cases hrest : c.rest with
  | nil => exact absurd (Nat.le_of_eq (h.left.trans (by rw [hrest, List.length_nil]))) hleft
  | cons x rest =>
    have hx : x ≠ '\x00' := by
      rintro rfl
      exact h.rest (hrest ▸ List.mem_cons_self)
    rwa [here, hrest]

theorem Faulty.next (h : c.Faulty) : c.next.Faulty := by
  cases hrest : c.rest with
  | nil =>
    have hnext : c.next = c := by rw [Cursor.next, hrest]
    rwa [hnext]
  | cons x rest =>
    obtain ⟨hbeyond, hleft, hchars⟩ := h
    rw [hrest] at hleft hchars
    rw [Cursor.next, hrest]
    exact ⟨hbeyond, by rw [hleft]; rfl, fun hmem => hchars (List.mem_cons_of_mem x hmem)⟩

theorem Faulty.skip (h : c.Faulty) (n : Nat) : (c.skip n).Faulty := by
  induction n generalizing c with
  | zero => exact h
  | succ n ih => exact ih h.next

theorem Faulty.run (h : c.Faulty) (p : Char → Bool) : (c.run p).2.Faulty := h.skip _

theorem Faulty.pass (h : c.Faulty) (p : Char → Bool) : (c.pass p).Faulty := h.run p

theorem Faulty.lineBreak (h : c.Faulty) : c.lineBreak.2.Faulty := by
  unfold Cursor.lineBreak
  split_ifs
  · exact h.skip 2
  · exact h.next
  · exact h.next
  · exact h

theorem Faulty.ite (p : Prop) [Decidable p] {d : Cursor} (hc : c.Faulty) (hd : d.Faulty) :
    (if p then c else d).Faulty := by
  split_ifs
  · exact hc
  · exact hd

/-- Past blanks, and past a comment when one follows. -/
theorem Faulty.pastComment (h : c.Faulty) :
    (if (c.pass (· = ' ')).here = '#' then (c.pass (· = ' ')).pass (!endsLine ·)
      else c.pass (· = ' ')).Faulty :=
  Faulty.ite _ ((h.pass _).pass _) (h.pass _)

theorem Faulty.restOfLine (h : c.Faulty) : Returns Faulty c.restOfLine :=
  returns_ite (returns_ok h.pastComment.lineBreak) (returns_error _)

end Faulty
end Cursor

open Cursor (Faulty)

variable {c : Cursor}

/-- The stream does not end with the token, and goes on at the place. -/
def GoesOn (r : Token × Cursor) : Prop := r.1 ≠ .streamEnd ∧ r.2.Faulty

/-! ### Directives, anchors and tags -/

theorem returns_name? (h : c.Faulty) : Returns (fun r => r.2.Faulty) (name? c) := by
  have hrun := h.run isNameChar
  unfold name?
  split
  · exact returns_error _
  · rename_i hr
    rw [hr] at hrun
    exact returns_ok hrun

theorem returns_uriOctets (fuel : Nat) (h : c.Faulty) :
    Returns (fun r => r.2.Faulty) (uriOctets fuel c) := by
  induction fuel generalizing c with
  | zero => exact returns_ok h
  | succ fuel ih =>
    rw [uriOctets]
    refine returns_ite (returns_ok h) ?_
    dsimp only
    split
    · exact (ih (h.next.skip 2)).bind fun _ hr => returns_ok hr
    · exact returns_bind fun _ _ => returns_error _
    · exact returns_error _

theorem returns_uriChars (fuel : Nat) (text : List Char) (h : c.Faulty) :
    Returns (fun r => r.2.Faulty) (uriChars fuel c text) := by
  induction fuel generalizing c text with
  | zero => exact returns_ok h
  | succ fuel ih =>
    rw [uriChars]
    refine returns_ite ((returns_uriOctets _ h).bind fun r hr => ?_)
      (returns_ite (ih _ h.next) (returns_ok h))
    dsimp only
    split
    · exact returns_error _
    · exact ih _ hr

theorem returns_uri? (h : c.Faulty) : Returns (fun r => r.2.Faulty) (uri? c) := by
  refine (returns_uriChars _ _ h).bind fun r hr => ?_
  exact returns_ite (returns_bind fun _ _ => returns_ok hr) (returns_ok hr)

theorem returns_tagHandle? (h : c.Faulty) : Returns (fun r => r.2.Faulty) (tagHandle? c) := by
  refine returns_ite (returns_error _) (returns_ite (returns_ok h.next) ?_)
  exact returns_ite (returns_ok (h.next.run _).next) (returns_error _)

theorem returns_number? (h : c.Faulty) : Returns (fun r => r.2.Faulty) (number? c) := by
  have hrun := h.run Text.isAsciiDigit
  unfold number?
  split
  · exact returns_error _
  · rename_i hr
    rw [hr] at hrun
    refine returns_bind fun _ _ => ?_
    exact returns_ite (returns_error _) (returns_ok hrun)

theorem returns_version? (h : c.Faulty) : Returns GoesOn (version? c) := by
  refine (returns_number? (h.pass _)).bind fun major hmajor => ?_
  refine returns_ite (returns_error _) ?_
  refine (returns_number? hmajor.next).bind fun minor hminor => ?_
  exact returns_ite (returns_ok ⟨nofun, hminor⟩) (returns_error _)

theorem returns_tagDirective? (h : c.Faulty) : Returns GoesOn (tagDirective? c) := by
  refine (returns_tagHandle? (h.pass _)).bind fun handle hhandle => ?_
  refine returns_ite (returns_error _) ?_
  refine (returns_uri? (hhandle.pass _)).bind fun leading hleading => ?_
  exact returns_ite (returns_ok ⟨nofun, hleading⟩) (returns_error _)

theorem returns_directive? (h : c.Faulty) : Returns GoesOn (directive? c) := by
  refine (returns_name? h.next).bind fun name hname => ?_
  have hrest {r : Token × Cursor} (hr : GoesOn r) :
      Returns GoesOn (r.2.restOfLine >>= fun d => pure (r.1, d)) :=
    hr.2.restOfLine.bind fun _ hd => returns_ok ⟨hr.1, hd⟩
  refine returns_ite (returns_error _) ?_
  refine returns_ite ((returns_version? hname).bind fun r hr => hrest hr) ?_
  refine returns_ite ((returns_tagDirective? hname).bind fun r hr => hrest hr) ?_
  have hother : GoesOn (.otherDirective, name.2.pass (!endsLine ·)) := ⟨nofun, hname.pass _⟩
  exact (returns_ok hother).bind fun r hr => hrest hr

theorem returns_anchorName? (h : c.Faulty) :
    Returns (fun r => r.2.Faulty) (anchorName? c) := by
  refine (returns_name? h.next).bind fun name hname => ?_
  exact returns_ite (returns_ok hname) (returns_error _)

theorem returns_tagText? (h : c.Faulty) : Returns GoesOn (tagText? c) := by
  refine returns_ite ((returns_uri? (h.skip 2)).bind fun suffix hsuffix => ?_) ?_
  · exact returns_ite (returns_ok ⟨nofun, hsuffix.next⟩) (returns_error _)
  · refine returns_ite (returns_ok ⟨nofun, h.next⟩) (returns_bind fun handled _ => ?_)
    refine returns_ite ((returns_tagHandle? h).bind fun handle hhandle => ?_) ?_
    · exact (returns_uri? hhandle).bind fun _ hsuffix => returns_ok ⟨nofun, hsuffix⟩
    · exact (returns_uri? h.next).bind fun _ hsuffix => returns_ok ⟨nofun, hsuffix⟩

theorem returns_tag? (h : c.Faulty) : Returns GoesOn (tag? c) := by
  refine (returns_tagText? h).bind fun token htoken => ?_
  exact returns_ite (returns_ok htoken) (returns_error _)

/-! ### Plain scalars -/

namespace Plain

theorem faulty_emptyLines (fuel : Nat) (breaks : List Char) (h : c.Faulty) :
    (emptyLines fuel c breaks).2.Faulty := by
  induction fuel generalizing c breaks with
  | zero => exact h
  | succ fuel ih =>
    rw [emptyLines]
    dsimp only
    split_ifs
    · exact ih _ h.next
    · exact h.lineBreak
    · exact ih _ h.lineBreak
    · exact h

theorem faulty_gap (h : c.Faulty) : (gap c).after.Faulty := by
  have hblanks := h.run (· = ' ')
  have hlines := faulty_emptyLines (c.run (· = ' ')).2.lineBreak.2.left [] hblanks.lineBreak
  unfold gap
  dsimp only
  split_ifs
  · exact hblanks.lineBreak
  · split
    · rename_i hr
      rw [hr] at hlines
      exact hlines
    · rename_i hr
      rw [hr] at hlines
      exact hlines
  · exact hblanks

theorem faulty_words (inFlow : Bool) (indent : Int) (fuel : Nat) (text : List Char)
    (h : c.Faulty) : (words inFlow indent fuel c text).2.1.Faulty := by
  induction fuel generalizing c text with
  | zero => exact h
  | succ fuel ih =>
    rw [words]
    dsimp only
    split
    · exact h
    · have hgap := faulty_gap (h.skip (word inFlow c.rest).length)
      split_ifs
      · exact hgap
      · split
        · exact hgap
        · exact ih _ hgap

theorem faulty_read (inFlow : Bool) (indent : Int) (h : c.Faulty) :
    (read inFlow indent c).2.1.Faulty := faulty_words inFlow indent _ _ h

end Plain

/-! ### Quoted scalars -/

namespace Quoted

theorem returns_code (count : Nat) (h : c.Faulty) :
    Returns (fun r => r.2.Faulty) (code count c) := by
  refine returns_bind fun _ _ => ?_
  exact returns_ite (returns_error _) (returns_ok (h.skip count))

theorem returns_emptyLines (fuel : Nat) (breaks : List Char) (h : c.Faulty) :
    Returns (fun r => r.2.Faulty) (emptyLines fuel c breaks) := by
  induction fuel generalizing c breaks with
  | zero => exact returns_ok h
  | succ fuel ih =>
    have hpassed := h.pass fun x => x = ' ' || x = '\t'
    rw [emptyLines]
    refine returns_bind fun _ _ => returns_ite (returns_error _) ?_
    exact returns_ite (ih _ hpassed.lineBreak) (returns_ok hpassed)

theorem returns_gap (h : c.Faulty) : Returns (fun r => r.2.Faulty) (gap c) := by
  have hblanks := h.run fun x => x = ' ' || x = '\t'
  refine returns_ite (returns_error _) (returns_ite ?_ (returns_ok hblanks))
  exact (returns_emptyLines _ _ hblanks.lineBreak).bind fun _ hr => returns_ok hr

theorem returns_escape (h : c.Faulty) : Returns (fun r => r.2.Faulty) (escape c) := by
  unfold escape
  split
  · exact returns_ok h.next
  · refine (returns_code _ h.next).bind fun r hr => ?_
    exact returns_bind fun _ _ => returns_ok hr
  · refine returns_ite ?_ (returns_error _)
    exact (returns_emptyLines _ _ h.lineBreak).bind fun _ hr => returns_ok hr

theorem returns_body (double : Bool) (fuel : Nat) (text : Text) (h : c.Faulty) :
    Returns (fun r => r.2.Faulty) (body double fuel c text) := by
  induction fuel generalizing c text with
  | zero => exact returns_error _
  | succ fuel ih =>
    rw [body]
    refine returns_ite (returns_ok h.next) (returns_ite ?_ (returns_ite ?_ (returns_ite ?_ ?_)))
    · exact returns_ite (ih _ (h.skip 2)) (returns_ok h.next)
    · exact (returns_gap h).bind fun _ hr => ih _ hr
    · exact (returns_escape h.next).bind fun _ hr => ih _ hr
    · exact ih _ h.next

theorem returns_read (double : Bool) (h : c.Faulty) :
    Returns (fun r => r.2.Faulty) (read double c) := returns_body double _ _ h.next

end Quoted

/-! ### Block scalars -/

namespace Block

theorem returns_indicators (h : c.Faulty) :
    Returns (fun r => r.2.2.Faulty) (indicators c) := by
  unfold indicators
  split
  · refine returns_bind fun increment _ => returns_ok ?_
    exact Faulty.ite _ h.next.next h.next
  · refine returns_bind fun increment _ => ?_
    split
    · exact returns_ok h
    · dsimp only
      split
      · exact returns_ok h.next.next
      · exact returns_ok h.next

theorem faulty_detectIndent (fuel : Nat) (breaks : List Char) (deepest : Nat) (h : c.Faulty) :
    (detectIndent fuel c breaks deepest).2.2.Faulty := by
  induction fuel generalizing c breaks deepest with
  | zero => exact h
  | succ fuel ih =>
    rw [detectIndent]
    dsimp only
    split_ifs
    · exact ih _ _ h.next
    · exact ih _ _ h.lineBreak
    · exact h

theorem faulty_passIndent (indent fuel : Nat) (h : c.Faulty) :
    (passIndent indent fuel c).Faulty := by
  induction fuel generalizing c with
  | zero => exact h
  | succ fuel ih =>
    rw [passIndent]
    exact Faulty.ite _ (ih h.next) h

theorem faulty_emptyLines (indent fuel : Nat) (breaks : List Char) (h : c.Faulty) :
    (emptyLines indent fuel c breaks).2.Faulty := by
  induction fuel generalizing c breaks with
  | zero => exact h
  | succ fuel ih =>
    have hpassed := faulty_passIndent indent indent h
    rw [emptyLines]
    dsimp only
    split_ifs
    · exact ih _ hpassed.lineBreak
    · exact hpassed

theorem faulty_lines (folded : Bool) (indent fuel : Nat) (breaks text : List Char)
    (h : c.Faulty) : (lines folded indent fuel c breaks text).2.2.2.Faulty := by
  induction fuel generalizing c breaks text with
  | zero => exact h
  | succ fuel ih =>
    have hline := (h.run (!endsLine ·)).lineBreak
    have hnext := faulty_emptyLines indent
      ((c.run (!endsLine ·)).2.lineBreak.2.left + 1) [] hline
    rw [lines]
    dsimp only
    split_ifs
    all_goals first | exact ih _ _ hnext | exact hnext

theorem returns_read (folded : Bool) (parent : Int) (h : c.Faulty) :
    Returns (fun r => r.2.Faulty) (read folded parent c) := by
  have hlines {d : Cursor} (hd : d.Faulty) (breaks : List Char) (indent : Nat) :
      (if (d.column = indent && d.here ≠ '\x00') = true then
        lines folded indent (d.left + 1) d breaks [] else ([], [], breaks, d)).2.2.2.Faulty := by
    split_ifs
    · exact faulty_lines folded indent _ _ _ hd
    · exact hd
  refine (returns_indicators h.next).bind fun r hr => ?_
  refine returns_ite (returns_error _) (hr.restOfLine.bind fun d hd => ?_)
  dsimp only
  split
  · exact returns_ok (hlines (faulty_emptyLines _ _ _ hd) _ _)
  · exact returns_ok (hlines (faulty_detectIndent _ _ _ hd) _ _)

end Block
end Yaml
end MachineCatalog
