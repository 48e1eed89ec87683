/-
# Catalogs of reordered machine types

A catalog does not depend on the order in which machine types come, as long as no two of them
have one identity (`Report.render_perm`).  The text `project/zone` of a zone tells its project
and its name when neither has a slash, and from a URL none with a slash is read.  So machine
types of one zone and one name are one machine type, and sorting leaves no choice
(`Report.byZone_perm`).
-/

import MachineCatalog.Proofs.Report.Showing
import MachineCatalog.Proofs.Report.Zones
import MachineCatalog.Report.Html
import MachineCatalog.Report.Markdown

namespace MachineCatalog

open Identity in
/-- The text of a zone and the name of a machine type tell them apart from others. -/
theorem MachineTypeId.eq_of_text_zoneId_eq {a b : MachineTypeId} (ha : a.WellFormed)
    (hb : b.WellFormed) (hz : a.zoneId.text = b.zoneId.text)
    (hm : a.machineType = b.machineType) : a = b := by
  have hsegments {m : MachineTypeId} (h : m.WellFormed) :
      segments m.zoneId.text = [m.project, m.zone] := by
    have htext : m.zoneId.text = m.project ++ CodePoint.ofChar '/' :: m.zone := by
      rw [ZoneId.text, List.append_assoc]
      rfl
    rw [htext, segments_append, segments_of_isSegment h.project, segments_of_isSegment h.zone]
    rfl
  have hparts : [a.project, a.zone] = [b.project, b.zone] := by
    rw [← hsegments ha, hz, hsegments hb]
  obtain ⟨p, z, n⟩ := a
  simp_all

namespace Report

/-- **Reordered machine types have the same zones**, unless two different ones have the same zone
and the same name. -/
theorem byZone_perm {ms ms' : List MachineType} (hperm : ms.Perm ms')
    (hone : ∀ a ∈ ms, ∀ b ∈ ms, zoneText a = zoneText b → a.name = b.name → a = b) :
    byZone ms = byZone ms' := by
  have hzones := isStablePartition_byZone ms
  refine isStablePartition_iff.1
    { increasing := hzones.increasing
      mem_iff := fun zone => ?_
      perm := fun z hz => (hzones.perm z hz).trans (hperm.filter _)
      sorted := hzones.sorted
      stable := fun z hz name => (hzones.stable z hz name).trans ?_ }
  · simp only [hzones.mem_iff, hperm.mem_iff]
  · -- the machine types of one zone and one name are all the same
    have hmem {m : MachineType} (hm : m ∈ (ms.filter (zoneText · = z.1)).filter (·.name = name)) :
        m ∈ ms ∧ m.name = name ∧ zoneText m = z.1 := by
      simpa using hm
    have hall : ((ms.filter (zoneText · = z.1)).filter (·.name = name)).Pairwise (· = ·) := by
      refine List.pairwise_of_forall_mem_list fun a ha b hb => ?_
      obtain ⟨ha, han, haz⟩ := hmem ha
      obtain ⟨hb, hbn, hbz⟩ := hmem hb
      exact hone a ha b hb (haz.trans hbz.symm) (han.trans hbn.symm)
    have hsame := (hperm.filter (zoneText · = z.1)).filter (·.name = name)
    have hall' := (hsame.pairwise_iff Eq.symm).1 hall
    exact hsame.eq_of_pairwise (fun a b _ _ hab _ => hab) hall hall'

/-- The values that catalogs show are the same in another order. -/
theorem requireShown_perm {vs ws : List Value} (h : vs.Perm ws) :
    requireShown vs = requireShown ws := by
  rw [requireShown, requireShown, h.any_eq]

/-- **Catalogs do not depend on the order of the machine types.**  With machine types that were
read, no two of them of one identity, either catalog is the same in every order, and it is made
when no wire form held an integer that is too long to be written. -/
theorem render_perm {ms ms' : List MachineType} (hperm : ms.Perm ms')
    (hread : ∀ m ∈ ms, ∃ payload, MachineType.ofWire payload = .ok m)
    (hdistinct : (ms.map MachineType.machineTypeId).Nodup) (now : Moment) (source : Text) :
    Markdown.render now source ms = Markdown.render now source ms' ∧
      Html.render now source ms = Html.render now source ms' ∧
      ((∀ m ∈ ms, ∃ payload, payload.holdsLongInteger = false ∧
          MachineType.ofWire payload = .ok m) →
        ∃ text page, Markdown.render now source ms = .ok text ∧
          Html.render now source ms = .ok page) := by
  have hformed (m : MachineType) (hm : m ∈ ms) : m.machineTypeId.WellFormed := by
    obtain ⟨payload, hp⟩ := hread m hm
    exact (MachineType.isRead_of_ofWire hp).identity
  have hzones : byZone ms = byZone ms' := by
    refine byZone_perm hperm fun a ha b hb hz hn => ?_
    have hid := MachineTypeId.eq_of_text_zoneId_eq (hformed a ha) (hformed b hb) hz hn
    exact List.inj_on_of_nodup_map hdistinct ha hb hid
  have hshown := requireShown_perm <|
    hperm.flatMap_right fun m => m.maximumPersistentDisksSizeGb :: shownValues m
  refine ⟨?_, ?_, fun hpayloads => ?_⟩
  · rw [Markdown.render, Markdown.render, Markdown.lines, Markdown.lines, hshown, hzones,
      hperm.length_eq]
  · rw [Html.render, Html.render, Html.lines, Html.lines, hshown, hzones, hperm.length_eq]
  · have hall : ∀ m ∈ ms, IsShown m := by
      intro m hm
      obtain ⟨payload, hlong, hp⟩ := hpayloads m hm
      exact isShown_of_ofWire hlong hp
    exact ⟨_, _, requireShown_bind_eq_ok_iff.2 ⟨hall, rfl⟩,
      requireShown_bind_eq_ok_iff.2 ⟨hall, rfl⟩⟩

/-- The wire form of a machine type of which only the URL and the number of virtual CPUs, as a
text, are known. -/
def cpusPayload (link cpus : Text) : Value :=
  .object [("selfLink", .text link), ("guestCpus", .text cpus)]

/-- What is read from it. -/
def cpusType (name cpus : Text) : MachineType where
  machineTypeId := ⟨"p", "z", name⟩
  cpus := .text cpus

/-- Two machine types of one zone may change places. -/
theorem render_perm_swapped :
    let midnight : Moment := ⟨.newYear2000, ⟨0, 0, 0, 0⟩, none⟩
    let two := [cpusType "m" "1", cpusType "n" "2"]
    ∃ text page,
      Markdown.render midnight "s" two = .ok text ∧
      Markdown.render midnight "s" two.reverse = .ok text ∧
      Html.render midnight "s" two = .ok page ∧
      Html.render midnight "s" two.reverse = .ok page := by
  intro midnight two
  have hm : MachineType.ofWire (cpusPayload "projects/p/zones/z/machineTypes/m" "1") =
      .ok (cpusType "m" "1") := rfl
  have hn : MachineType.ofWire (cpusPayload "projects/p/zones/z/machineTypes/n" "2") =
      .ok (cpusType "n" "2") := rfl
  have hread : ∀ m ∈ two, ∃ payload, MachineType.ofWire payload = .ok m :=
    List.forall_mem_cons.2 ⟨⟨_, hm⟩, List.forall_mem_singleton.2 ⟨_, hn⟩⟩
  have hpayloads : ∀ m ∈ two, ∃ payload, payload.holdsLongInteger = false ∧
      MachineType.ofWire payload = .ok m :=
    List.forall_mem_cons.2 ⟨⟨_, rfl, hm⟩, List.forall_mem_singleton.2 ⟨_, rfl, hn⟩⟩
  obtain ⟨hmarkdown, hhtml, hmade⟩ :=
    render_perm (List.reverse_perm two).symm hread (by decide) midnight "s"
  obtain ⟨text, page, ht, hp⟩ := hmade hpayloads
  exact ⟨text, page, ht, hmarkdown ▸ ht, hp, hhtml ▸ hp⟩

end Report
end MachineCatalog
