/-
# Identities and their self links

The names of an identity are segments: not empty, and without a slash
(`MachineTypeId.WellFormed`).  A URL only ever names such identities
(`MachineTypeId.wellFormed_of_ofUrl?`), and the self link of such an identity
names it again (`MachineTypeId.ofUrl?_selfLink`).

With slashes in the names two identities may share a self link, but not one that
also has the same zone and the same name (`MachineTypeId.eq_of_selfLink_eq`).
-/

import MachineCatalog.Identity
import MachineCatalog.Proofs.Failure

namespace MachineCatalog

namespace Text

variable {α : Type} [BEq α]

theorem splitAt_of_not_mem [LawfulBEq α] {separator : α} {s : List α} (h : separator ∉ s) :
    splitAt separator s = [s] := by
  induction s with
  | nil => rfl
  | cons c rest ih =>
    rw [List.mem_cons, not_or] at h
    rw [splitAt, ih h.2, if_neg (by simpa using Ne.symm h.1)]

theorem splitAt_ne_nil (separator : α) (s : List α) : splitAt separator s ≠ [] := by
  cases s with
  | nil => simp [splitAt]
  | cons c rest =>
    rw [splitAt]
    split
    · simp
    · split <;> simp

/-- A separator divides the parts before it from the parts after it. -/
theorem splitAt_append_cons [LawfulBEq α] (separator : α) (s t : List α) :
    splitAt separator (s ++ separator :: t) = splitAt separator s ++ splitAt separator t := by
  induction s with
  | nil => simp [splitAt]
  | cons c rest ih =>
    rw [List.cons_append, splitAt, splitAt, ih]
    split
    · rfl
    · cases hs : splitAt separator rest with
      | nil => exact absurd hs (splitAt_ne_nil separator rest)
      | cons part more => rfl

/-- No part has the separator in it. -/
theorem not_mem_of_mem_splitAt [LawfulBEq α] {separator : α} {s part : List α}
    (h : part ∈ splitAt separator s) : separator ∉ part := by
  induction s generalizing part with
  | nil =>
    rw [splitAt, List.mem_singleton] at h
    rw [h]
    exact List.not_mem_nil
  | cons c rest ih =>
    rw [splitAt] at h
    split at h
    · rcases List.mem_cons.1 h with rfl | h
      · exact List.not_mem_nil
      · exact ih h
    · rename_i hc
      cases hs : splitAt separator rest with
      | nil => exact absurd hs (splitAt_ne_nil separator rest)
      | cons first more =>
        rw [hs] at h ih
        rcases List.mem_cons.1 h with rfl | h
        · rw [List.mem_cons, not_or]
          exact ⟨fun he => hc (by simp [he]), ih List.mem_cons_self⟩
        · exact ih (List.mem_cons_of_mem _ h)

/-- The parts stand in the whole one after the other. -/
theorem infix_of_splitAt_eq_cons {separator : α} {s first : List α} {more : List (List α)}
    (h : splitAt separator s = first :: more) : first <+: s ∧ ∀ part ∈ more, part <:+: s := by
  induction s generalizing first more with
  | nil =>
    obtain ⟨rfl, rfl⟩ := List.cons.inj h
    exact ⟨List.nil_prefix, by simp⟩
  | cons c rest ih =>
    obtain ⟨next, others, hrest⟩ := List.exists_cons_of_ne_nil (splitAt_ne_nil separator rest)
    obtain ⟨hnext, hothers⟩ := ih hrest
    have hcons {part : List α} (hp : part <:+: rest) : part <:+: c :: rest :=
      hp.trans (List.suffix_cons c rest).isInfix
    rw [splitAt, hrest] at h
    split at h
    · obtain ⟨rfl, rfl⟩ := List.cons.inj h
      refine ⟨List.nil_prefix, fun part hp => ?_⟩
      rcases List.mem_cons.1 hp with rfl | hp
      · exact hcons hnext.isInfix
      · exact hcons (hothers part hp)
    · obtain ⟨rfl, rfl⟩ := List.cons.inj h
      exact ⟨List.cons_prefix_cons.2 ⟨rfl, hnext⟩, fun part hp => hcons (hothers part hp)⟩

theorem infix_of_mem_splitAt {separator : α} {s part : List α} (h : part ∈ splitAt separator s) :
    part <:+: s := by
  obtain ⟨first, more, hs⟩ := List.exists_cons_of_ne_nil (splitAt_ne_nil separator s)
  obtain ⟨hfirst, hmore⟩ := infix_of_splitAt_eq_cons hs
  rw [hs] at h
  rcases List.mem_cons.1 h with rfl | h
  · exact hfirst.isInfix
  · exact hmore part h

end Text

namespace Identity

/-- The text may be one name of an identity: it is not empty and has no slash. -/
def IsSegment (s : Text) : Prop := s ≠ [] ∧ CodePoint.ofChar '/' ∉ s

instance (s : Text) : Decidable (IsSegment s) := by unfold IsSegment; infer_instance

theorem segments_of_isSegment {s : Text} (h : IsSegment s) : segments s = [s] :=
  Text.splitAt_of_not_mem h.2

theorem segments_append (s t : Text) :
    segments (s ++ CodePoint.ofChar '/' :: t) = segments s ++ segments t :=
  Text.splitAt_append_cons ..

end Identity

namespace MachineTypeId

open Identity

/-- Every name of the identity is a segment. -/
structure WellFormed (m : MachineTypeId) : Prop where
  project : IsSegment m.project
  zone : IsSegment m.zone
  machineType : IsSegment m.machineType

/-- The self link in its segments. -/
theorem selfLink_eq (m : MachineTypeId) :
    m.selfLink = ("https://www.googleapis.com/compute/v1" : Text) ++ CodePoint.ofChar '/' ::
      (("projects" : Text) ++ CodePoint.ofChar '/' :: (m.project ++ CodePoint.ofChar '/' ::
        (("zones" : Text) ++ CodePoint.ofChar '/' :: (m.zone ++ CodePoint.ofChar '/' ::
          (("machineTypes" : Text) ++ CodePoint.ofChar '/' :: m.machineType))))) := by
  have hb : baseUrl =
      ("https://www.googleapis.com/compute/v1" : Text) ++ [CodePoint.ofChar '/'] := by decide
  have hp : ("projects/" : Text) = ("projects" : Text) ++ [CodePoint.ofChar '/'] := by decide
  have hz : ("/zones/" : Text) =
      CodePoint.ofChar '/' :: (("zones" : Text) ++ [CodePoint.ofChar '/']) := by
    decide
  have ht : ("/machineTypes/" : Text) =
      CodePoint.ofChar '/' :: (("machineTypes" : Text) ++ [CodePoint.ofChar '/']) := by
    decide
  simp only [selfLink, ZoneId.selfLink, zoneId, hb, hp, hz, ht, List.append_assoc,
    List.cons_append, List.nil_append]

/-- **The self link of a well-formed identity names it.** -/
theorem ofUrl?_selfLink {m : MachineTypeId} (h : m.WellFormed) : ofUrl? m.selfLink = some m := by
  have hsegments : segments m.selfLink =
      segments ("https://www.googleapis.com/compute/v1" : Text) ++
        [("projects" : Text), m.project, "zones", m.zone, "machineTypes", m.machineType] := by
    rw [selfLink_eq]
    simp only [segments_append, segments_of_isSegment h.project, segments_of_isSegment h.zone,
      segments_of_isSegment h.machineType]
    rfl
  have hbefore : mayPrecede (segments ("https://www.googleapis.com/compute/v1" : Text)).reverse =
      true := by decide
  rw [ofUrl?, hsegments, List.reverse_append]
  exact if_pos ⟨h.machineType.1, rfl, h.zone.1, rfl, h.project.1, rfl, hbefore⟩

/-- The names of the identity that a URL names are segments of the URL. -/
theorem mem_segments_of_ofUrl? {url : Text} {m : MachineTypeId} (h : ofUrl? url = some m) :
    ∀ name ∈ [m.project, m.zone, m.machineType], name ≠ [] ∧ name ∈ segments url := by
  rw [ofUrl?] at h
  split at h
  · rename_i name types zone zones project projects before hs
    have hparts : ∀ part ∈ [name, types, zone, zones, project, projects], part ∈ segments url := by
      intro part hp
      refine List.mem_reverse.1 ?_
      rw [hs]
      exact List.mem_append_left before hp
    split at h
    · rename_i hc
      obtain rfl := Option.some.inj h
      simp only [List.forall_mem_cons, List.not_mem_nil, false_imp_iff, implies_true, and_true]
      exact ⟨⟨hc.2.2.2.2.1, hparts _ (by simp)⟩, ⟨hc.2.2.1, hparts _ (by simp)⟩,
        ⟨hc.1, hparts _ (by simp)⟩⟩
    · exact absurd h (by simp)
  · exact absurd h (by simp)

/-- **A URL names well-formed identities only.** -/
theorem wellFormed_of_ofUrl? {url : Text} {m : MachineTypeId} (h : ofUrl? url = some m) :
    m.WellFormed := by
  have hname : ∀ name ∈ [m.project, m.zone, m.machineType], IsSegment name := fun name hn =>
    ⟨(mem_segments_of_ofUrl? h name hn).1,
      Text.not_mem_of_mem_splitAt (mem_segments_of_ofUrl? h name hn).2⟩
  exact ⟨hname _ (by simp), hname _ (by simp), hname _ (by simp)⟩

/-- The value of a self link is read as its identity. -/
theorem ofUrl_selfLink {m : MachineTypeId} (h : m.WellFormed) :
    ofUrl (.text m.selfLink) = .ok m := by
  simp only [ofUrl, ofUrl?_selfLink h]

/-- Only a text that names an identity is read as one. -/
theorem exists_text_of_ofUrl {url : Value} {m : MachineTypeId} (h : ofUrl url = .ok m) :
    ∃ s, url = .text s ∧ ofUrl? s = some m := by
  unfold ofUrl at h
  split at h
  · rename_i s
    split at h
    · rename_i hm
      exact ⟨s, rfl, hm.trans (congrArg some (Except.ok.inj h))⟩
    · exact absurd h (reject_ne_ok _ _)
  · exact absurd h (reject_ne_ok _ _)

theorem wellFormed_of_ofUrl {url : Value} {m : MachineTypeId} (h : ofUrl url = .ok m) :
    m.WellFormed := by
  obtain ⟨s, -, hs⟩ := exists_text_of_ofUrl h
  exact wellFormed_of_ofUrl? hs

theorem selfLink_ne_nil (m : MachineTypeId) : m.selfLink ≠ [] := by
  rw [selfLink_eq]
  exact List.append_ne_nil_of_right_ne_nil _ (List.cons_ne_nil _ _)

/-- **Self link, zone and name together determine the identity**, whatever its
names hold: what stands before and after the project is then the same. -/
theorem eq_of_selfLink_eq {a b : MachineTypeId} (hl : a.selfLink = b.selfLink)
    (hz : a.zone = b.zone) (hm : a.machineType = b.machineType) : a = b := by
  obtain ⟨p, z, n⟩ := a
  obtain ⟨q, y, k⟩ := b
  obtain rfl : z = y := hz
  obtain rfl : n = k := hm
  simp only [selfLink, ZoneId.selfLink, zoneId, List.append_assoc, List.append_cancel_left_eq,
    List.append_cancel_right_eq] at hl
  rw [hl]

end MachineTypeId
end MachineCatalog
