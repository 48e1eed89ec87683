/-
# The tokens of a stream with a fault

While something is wrong behind the text of a stream, no token that is read says that the stream
ends (`TokenQueue.Faulty.settle`): the end is a token only where there are no characters left, and
the reader fails when it looks there.
-/

import MachineCatalog.Proofs.Yaml.Cursor
import MachineCatalog.Yaml.TokenQueue

namespace MachineCatalog
namespace Yaml
namespace TokenQueue

/-- The place is one before a fault, and no token ahead is the end of the stream. -/
structure Faulty (s : TokenQueue) : Prop where
  cursor : s.cursor.Faulty
  ahead : .streamEnd ∉ s.ahead

section Faulty

variable {s : TokenQueue}

theorem Faulty.add (h : s.Faulty) {t : Token} (ht : t ≠ .streamEnd) : (s.add t).Faulty where
  cursor := h.cursor
  ahead := by
    rw [TokenQueue.add, List.mem_append, List.mem_singleton]
    exact not_or.2 ⟨h.ahead, ht.symm⟩

theorem Faulty.push (h : s.Faulty) {t : Token} {c : Cursor} (ht : t ≠ .streamEnd)
    (hc : c.Faulty) : (s.push t c).Faulty := ⟨hc, (h.add ht).ahead⟩

theorem Faulty.insert (h : s.Faulty) (number : Nat) {t : Token} (ht : t ≠ .streamEnd) :
    (s.insert number t).Faulty where
  cursor := h.cursor
  ahead := by
    rw [TokenQueue.insert, List.mem_append, List.mem_cons, not_or, not_or]
    exact ⟨fun hmem => h.ahead (List.mem_of_mem_take hmem), ht.symm,
      fun hmem => h.ahead (List.mem_of_mem_drop hmem)⟩

theorem Faulty.take (h : s.Faulty) : s.take.Faulty where
  cursor := h.cursor
  ahead := fun hmem => h.ahead (List.mem_of_mem_drop hmem)

theorem Faulty.go_toNextToken (inFlow : Bool) (fuel : Nat) (h : s.Faulty) :
    (toNextToken.go inFlow fuel s).Faulty := by
  induction fuel generalizing s with
  | zero => exact h
  | succ fuel ih =>
    have hplace := h.cursor.pastComment
    rw [toNextToken.go]
    generalize (if (s.cursor.pass (· = ' ')).here = '#' then
      (s.cursor.pass (· = ' ')).pass (!endsLine ·) else s.cursor.pass (· = ' ')) = c at hplace ⊢
    split_ifs
    · exact ih ⟨hplace.lineBreak, h.ahead⟩
    · exact ⟨hplace, h.ahead⟩

theorem Faulty.toNextToken (h : s.Faulty) : s.toNextToken.Faulty := by
  have hstart := Cursor.Faulty.ite (s.cursor.index = 0 && s.cursor.here.toNat = 0xFEFF)
    h.cursor.next h.cursor
  exact Faulty.go_toNextToken _ _ ⟨hstart, h.ahead⟩

theorem Faulty.dropStale (h : s.Faulty) : Returns Faulty s.dropStale :=
  returns_ite (returns_error _) (returns_ok ⟨h.cursor, h.ahead⟩)

theorem Faulty.dropCandidate (h : s.Faulty) : Returns Faulty s.dropCandidate :=
  returns_ite (returns_error _) (returns_ok ⟨h.cursor, h.ahead⟩)

theorem Faulty.noteCandidate (h : s.Faulty) : Returns Faulty s.noteCandidate :=
  returns_ite (h.dropCandidate.bind fun _ hs => returns_ok ⟨hs.cursor, hs.ahead⟩) (returns_ok h)

theorem Faulty.go_unwind (column : Int) (outer : List Int) (h : s.Faulty) :
    (unwind.go column outer s).Faulty := by
  induction outer generalizing s with
  | nil => exact h
  | cons i outer ih =>
    have hend := h.add (t := Token.blockEnd) nofun
    rw [unwind.go]
    split_ifs
    · exact ih ⟨hend.cursor, hend.ahead⟩
    · exact h

theorem Faulty.unwind (column : Int) (h : s.Faulty) : (s.unwind column).Faulty := by
  unfold TokenQueue.unwind
  split_ifs
  · exact h
  · exact h.go_unwind column _

theorem Faulty.openBlock? (h : s.Faulty) {column : Int} {s' : TokenQueue}
    (hs : s.openBlock? column = some s') : s'.Faulty := by
  unfold TokenQueue.openBlock? at hs
  split_ifs at hs
  obtain rfl := Option.some.inj hs
  exact ⟨h.cursor, h.ahead⟩

theorem Faulty.directive (h : s.Faulty) : Returns Faulty s.directive := by
  refine (h.unwind _).dropCandidate.bind fun s hs => ?_
  refine (returns_directive? hs.cursor).bind fun r hr => returns_ok ?_
  have hpush := hs.push hr.1 hr.2
  exact ⟨hpush.cursor, hpush.ahead⟩

theorem Faulty.documentMark (h : s.Faulty) {t : Token} (ht : t ≠ .streamEnd) :
    Returns Faulty (s.documentMark t) := by
  refine (h.unwind _).dropCandidate.bind fun s hs => returns_ok ?_
  have hpush := hs.push ht (hs.cursor.skip 3)
  exact ⟨hpush.cursor, hpush.ahead⟩

theorem Faulty.flowStart (h : s.Faulty) {t : Token} (ht : t ≠ .streamEnd) :
    Returns Faulty (s.flowStart t) := by
  refine h.noteCandidate.bind fun s hs => returns_ok ?_
  have hpush := hs.push ht hs.cursor.next
  exact ⟨hpush.cursor, hpush.ahead⟩

theorem Faulty.flowEnd (h : s.Faulty) {t : Token} (ht : t ≠ .streamEnd) :
    Returns Faulty (s.flowEnd t) := by
  refine h.dropCandidate.bind fun s hs => returns_ok ?_
  have hpush := hs.push ht hs.cursor.next
  exact ⟨hpush.cursor, hpush.ahead⟩

theorem Faulty.flowEntry (h : s.Faulty) : Returns Faulty s.flowEntry := by
  refine h.dropCandidate.bind fun s hs => returns_ok ?_
  have hpush := hs.push (t := Token.flowEntry) nofun hs.cursor.next
  exact ⟨hpush.cursor, hpush.ahead⟩

theorem Faulty.blockFor (h : s.Faulty) (t : Token) (ht : t ≠ .streamEnd) :
    Returns Faulty (s.blockFor t) := by
  refine returns_ite (returns_ok h) (returns_ite (returns_error _) ?_)
  split
  · rename_i hs
    exact returns_ok ((h.openBlock? hs).add ht)
  · exact returns_ok h

theorem Faulty.blockEntry (h : s.Faulty) : Returns Faulty s.blockEntry := by
  refine (h.blockFor .blockSequenceStart nofun).bind fun s hs => ?_
  refine hs.dropCandidate.bind fun s hs => returns_ok ?_
  have hpush := hs.push (t := Token.blockEntry) nofun hs.cursor.next
  exact ⟨hpush.cursor, hpush.ahead⟩

theorem Faulty.keyMark (h : s.Faulty) : Returns Faulty s.keyMark := by
  refine (h.blockFor .blockMappingStart nofun).bind fun s hs => ?_
  refine hs.dropCandidate.bind fun s hs => returns_ok ?_
  have hpush := hs.push (t := Token.key) nofun hs.cursor.next
  exact ⟨hpush.cursor, hpush.ahead⟩

/-- The token of the value of a candidate, and those in front of the candidate. -/
theorem Faulty.keyed (h : s.Faulty) (k : KeyCandidate) :
    (if s.inFlow then s
      else
        match s.openBlock? k.column with
        | some s => s.insert k.number .blockMappingStart
        | none => s).Faulty := by
  split_ifs
  · exact h
  · split
    · rename_i hs
      exact (h.openBlock? hs).insert _ nofun
    · exact h

theorem Faulty.valueMark (h : s.Faulty) : Returns Faulty s.valueMark := by
  unfold TokenQueue.valueMark
  split
  · rename_i k _
    have hdropped : { s with
        candidates := s.candidates.filter fun k => k.level ≠ s.flowLevel }.Faulty :=
      ⟨h.cursor, h.ahead⟩
    have hkeyed := (hdropped.insert k.number (t := Token.key) nofun).keyed k
    have hpush := hkeyed.push (t := Token.value) nofun hkeyed.cursor.next
    exact returns_ok ⟨hpush.cursor, hpush.ahead⟩
  · refine (h.blockFor .blockMappingStart nofun).bind fun s hs => ?_
    refine hs.dropCandidate.bind fun s hs => returns_ok ?_
    have hpush := hs.push (t := Token.value) nofun hs.cursor.next
    exact ⟨hpush.cursor, hpush.ahead⟩

theorem Faulty.property (h : s.Faulty) {read : Cursor → Except Problem (Token × Cursor)}
    (hread : ∀ c : Cursor, c.Faulty → Returns GoesOn (read c)) :
    Returns Faulty (s.property read) := by
  refine h.noteCandidate.bind fun s hs => (hread _ hs.cursor).bind fun r hr => returns_ok ?_
  have hpush := hs.push hr.1 hr.2
  exact ⟨hpush.cursor, hpush.ahead⟩

theorem Faulty.quoted (h : s.Faulty) (double : Bool) : Returns Faulty (s.quoted double) :=
  h.property fun _ hc => (Quoted.returns_read double hc).bind fun _ hr => returns_ok ⟨nofun, hr⟩

theorem Faulty.block (h : s.Faulty) (folded : Bool) : Returns Faulty (s.block folded) := by
  refine h.dropCandidate.bind fun s hs => ?_
  refine (Block.returns_read folded _ hs.cursor).bind fun r hr => returns_ok ?_
  have hpush := hs.push (t := Token.scalar (Text.ofChars r.1) false) nofun hr
  exact ⟨hpush.cursor, hpush.ahead⟩

theorem Faulty.plain (h : s.Faulty) : Returns Faulty s.plain := by
  refine h.noteCandidate.bind fun s hs => ?_
  have hread := Plain.faulty_read s.inFlow (s.indent + 1) hs.cursor
  generalize Plain.read s.inFlow (s.indent + 1) s.cursor = read at hread ⊢
  obtain ⟨text, c, broken⟩ := read
  have hpush := hs.push (t := Token.scalar (Text.ofChars text) true) nofun hread
  refine returns_ite (returns_ite ?_ ?_) (returns_after ?_)
  · exact returns_bind fun _ _ => returns_ok ⟨hpush.cursor, hpush.ahead⟩
  · exact returns_bind fun _ _ => returns_ok ⟨hpush.cursor, hpush.ahead⟩
  · exact returns_ok ⟨hpush.cursor, hpush.ahead⟩

theorem cursor_of_dropStale {s' : TokenQueue} (h : s.dropStale = .ok s') :
    s'.cursor = s.cursor := by
  unfold TokenQueue.dropStale at h
  dsimp only at h
  split_ifs at h
  rw [← Except.ok.inj h]

theorem cursor_go_unwind (column : Int) (outer : List Int) :
    (unwind.go column outer s).cursor = s.cursor := by
  induction outer generalizing s with
  | nil => rfl
  | cons i outer ih =>
    rw [unwind.go]
    split_ifs
    · exact ih
    · rfl

theorem cursor_unwind (column : Int) : (s.unwind column).cursor = s.cursor := by
  unfold TokenQueue.unwind
  split_ifs
  · rfl
  · exact cursor_go_unwind column _

/-- **A token is added that is not the end**, as there is a character at the place. -/
theorem Faulty.token (h : s.Faulty) (hlook : s.cursor.look 0 = .ok ()) :
    Returns Faulty s.token := by
  unfold TokenQueue.token
  dsimp only
  refine returns_after (returns_after ?_)
  rw [if_neg (h.cursor.here_ne hlook)]
  refine returns_ite h.directive ?_
  refine returns_ite (h.documentMark nofun) (returns_ite (h.documentMark nofun) ?_)
  refine returns_ite (h.flowStart nofun) (returns_ite (h.flowStart nofun) ?_)
  refine returns_ite (h.flowEnd nofun) (returns_ite (h.flowEnd nofun) ?_)
  refine returns_ite h.flowEntry (returns_ite h.blockEntry ?_)
  refine returns_ite h.keyMark (returns_ite h.valueMark ?_)
  refine returns_ite (h.property fun c hc => ?_) (returns_ite (h.property fun c hc => ?_) ?_)
  · exact (returns_anchorName? hc).bind fun _ hr => returns_ok ⟨nofun, hr⟩
  · exact (returns_anchorName? hc).bind fun _ hr => returns_ok ⟨nofun, hr⟩
  refine returns_ite (h.property fun c hc => returns_tag? hc) ?_
  refine returns_ite (h.block _) (returns_ite (h.block _) ?_)
  refine returns_ite (h.quoted _) (returns_ite (h.quoted _) (returns_ite h.plain ?_))
  exact returns_bind fun _ _ => returns_error _

theorem Faulty.step (h : s.Faulty) : Returns Faulty s.step := by
  refine returns_bind fun _ hlook => returns_bind fun s' hs' => ?_
  have hunwound := (h.toNextToken.dropStale s' hs').unwind s'.cursor.column
  have hcursor : (s'.unwind s'.cursor.column).cursor = s.toNextToken.cursor := by
    rw [cursor_unwind, cursor_of_dropStale hs']
  refine (hunwound.token (by rwa [hcursor])).bind fun s hs => ?_
  exact returns_bind fun _ _ => returns_ok hs

theorem Faulty.go_settle (fuel : Nat) (h : s.Faulty) : Returns Faulty (settle.go fuel s) := by
  induction fuel generalizing s with
  | zero => exact returns_ok h
  | succ fuel ih =>
    have hgo {s : TokenQueue} (hs : s.Faulty) : Returns Faulty (do
        if s.isOpen then settle.go fuel (← s.step) else return s) :=
      returns_ite (hs.step.bind fun _ hs => ih hs) (returns_ok hs)
    rw [settle.go]
    refine returns_ite (returns_ok h) (returns_ite ?_ ?_)
    · exact (returns_ok h).bind fun _ hs => hgo hs
    · exact h.dropStale.bind fun _ hs => hgo hs

/-- **No token ahead is the end of the stream.** -/
theorem Faulty.settle (h : s.Faulty) : Returns Faulty s.settle := h.go_settle _

end Faulty
end TokenQueue
end Yaml
end MachineCatalog
