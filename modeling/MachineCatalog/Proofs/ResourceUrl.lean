/-
# The URLs that name resources

A URL names a zone or a machine type when it is made of a lead and the path of that
resource (`ZoneId.ofUrl?_eq_some_iff`, `MachineTypeId.ofUrl?_eq_some_iff`).  The lead is
empty, or a text without a line feed that ends in a slash (`Identity.IsLead`); the names
in the path are segments.

A text is its segments joined by slashes, and segments that are joined are found again
(`Text.intercalate_splitAt`, `Text.splitAt_intercalate`).  So the last segments of a URL
are the path, and those before them the lead (`Identity.endsIn_iff`).

What follows from the grammar is the same for both kinds of resources
(`Identity.UrlLaws.of_grammar`): each URL names one resource in one way, every other text
is rejected, and the self link of a resource names it.  The last segment but one tells
the two kinds apart (`Identity.not_both`).
-/

import MachineCatalog.Proofs.SelfLink

namespace MachineCatalog

namespace Text

variable {α : Type}

/-- Joining goes on after the first parts. -/
theorem intercalate_append {separator : List α} {parts more : List (List α)} (hp : parts ≠ [])
    (hm : more ≠ []) : separator.intercalate (parts ++ more) =
      separator.intercalate parts ++ (separator ++ separator.intercalate more) := by
  induction parts with
  | nil => exact absurd rfl hp
  | cons part parts ih =>
    cases parts with
    | nil =>
      rw [List.singleton_append, List.intercalate_singleton, List.intercalate_cons_of_ne_nil hm,
        List.append_assoc]
    | cons next parts =>
      rw [List.cons_append, List.intercalate_cons_of_ne_nil (by simp), List.intercalate_cons_cons,
        ih (List.cons_ne_nil _ _)]
      simp only [List.append_assoc]

/-- What joined parts hold is the separator or in one of the parts. -/
theorem mem_intercalate {separator c : α} {parts : List (List α)}
    (h : c ∈ [separator].intercalate parts) : c = separator ∨ ∃ part ∈ parts, c ∈ part := by
  induction parts with
  | nil => exact absurd h (by simp)
  | cons part more ih =>
    cases more with
    | nil =>
      rw [List.intercalate_singleton] at h
      exact .inr ⟨part, List.mem_singleton_self part, h⟩
    | cons next more =>
      rw [List.intercalate_cons_cons, List.mem_append, List.mem_append, List.mem_singleton] at h
      rcases h with (h | h) | h
      · exact .inr ⟨part, List.mem_cons_self, h⟩
      · exact .inl h
      · rcases ih h with h | ⟨other, ho, h⟩
        · exact .inl h
        · exact .inr ⟨other, List.mem_cons_of_mem _ ho, h⟩

variable [BEq α] [LawfulBEq α]

/-- The parts joined by the separator are the whole. -/
theorem intercalate_splitAt (separator : α) (s : List α) :
    [separator].intercalate (splitAt separator s) = s := by
  induction s with
  | nil => rfl
  | cons c rest ih =>
    obtain ⟨part, more, hrest⟩ := List.exists_cons_of_ne_nil (splitAt_ne_nil separator rest)
    rw [hrest] at ih
    rw [splitAt, hrest]
    split
    · rename_i hc
      rw [List.intercalate_cons_cons, ih, eq_of_beq hc]
      rfl
    · cases more with
      | nil =>
        rw [List.intercalate_singleton] at ih ⊢
        rw [ih]
      | cons next more =>
        rw [List.intercalate_cons_cons] at ih ⊢
        rw [← ih]
        rfl

/-- Joined parts are split where they were joined and where a part is split. -/
theorem splitAt_intercalate_eq_flatMap {separator : α} {parts : List (List α)}
    (hne : parts ≠ []) :
    splitAt separator ([separator].intercalate parts) = parts.flatMap (splitAt separator) := by
  induction parts with
  | nil => exact absurd rfl hne
  | cons part more ih =>
    cases more with
    | nil => rw [List.intercalate_singleton, List.flatMap_singleton]
    | cons next more =>
      rw [List.intercalate_cons_cons, List.append_assoc, List.singleton_append,
        splitAt_append_cons, ih (List.cons_ne_nil _ _), ← List.flatMap_cons]

/-- Parts without the separator are found again after they have been joined. -/
theorem splitAt_intercalate {separator : α} {parts : List (List α)} (hne : parts ≠ [])
    (h : ∀ part ∈ parts, separator ∉ part) :
    splitAt separator ([separator].intercalate parts) = parts := by
  have hparts : parts.map (splitAt separator) = parts.map fun part => [part] :=
    List.map_congr_left fun part hp => splitAt_of_not_mem (h part hp)
  rw [splitAt_intercalate_eq_flatMap hne, List.flatMap_def, hparts, ← List.flatMap_def,
    List.flatMap_singleton']

end Text

namespace Identity

/-- What may stand before the path in a URL: nothing, or a text without a line feed that ends in a
slash. -/
def IsLead (lead : Text) : Prop :=
  lead = [] ∨ CodePoint.ofChar '\n' ∉ lead ∧ ∃ t, lead = t ++ [CodePoint.ofChar '/']

/-- Segments joined by slashes. -/
def joined (parts : List Text) : Text := [CodePoint.ofChar '/'].intercalate parts

theorem mayPrecede_iff (before : List Text) :
    mayPrecede before = true ↔ ∀ s ∈ before, CodePoint.ofChar '\n' ∉ s := by
  simp [mayPrecede]

theorem mayPrecede_reverse (before : List Text) :
    mayPrecede before.reverse = mayPrecede before := by
  rw [mayPrecede, List.all_reverse, mayPrecede]

/-- The last segments of a URL are joined in it, and those before them are a lead. -/
theorem exists_before_iff {url : Text} {last : List Text} (hne : last ≠ [])
    (hlast : ∀ part ∈ last, CodePoint.ofChar '/' ∉ part) :
    (∃ before, segments url = before ++ last ∧ mayPrecede before = true) ↔
      ∃ lead, IsLead lead ∧ url = lead ++ joined last := by
  constructor
  · rintro ⟨before, hurl, hbefore⟩
    rw [mayPrecede_iff] at hbefore
    have hwhole := Text.intercalate_splitAt (CodePoint.ofChar '/') url
    rw [show Text.splitAt (CodePoint.ofChar '/') url = before ++ last from hurl] at hwhole
    cases before with
    | nil => exact ⟨[], .inl rfl, hwhole.symm⟩
    | cons first before =>
      rw [Text.intercalate_append (List.cons_ne_nil _ _) hne, ← List.append_assoc] at hwhole
      refine ⟨_, .inr ⟨fun hfeed => ?_, _, rfl⟩, hwhole.symm⟩
      rcases List.mem_append.1 hfeed with hfeed | hfeed
      · rcases Text.mem_intercalate hfeed with hfeed | ⟨part, hp, hfeed⟩
        · exact absurd hfeed (by decide)
        · exact hbefore part hp hfeed
      · exact absurd hfeed (by decide)
  · rintro ⟨lead, rfl | ⟨hfeed, t, rfl⟩, rfl⟩
    · exact ⟨[], Text.splitAt_intercalate hne hlast, rfl⟩
    · refine ⟨segments t, ?_, (mayPrecede_iff _).2 fun s hs hmem => hfeed ?_⟩
      · rw [List.append_assoc, List.singleton_append, segments_append]
        exact congrArg _ (Text.splitAt_intercalate hne hlast)
      · exact List.mem_append_left _ ((Text.infix_of_mem_splitAt hs).subset hmem)

/-- **A URL ends in segments when it is a lead and those segments joined.** -/
theorem endsIn_iff {url : Text} {last : List Text} (hne : last ≠ []) :
    ((∀ part ∈ last, part ≠ []) ∧
        ∃ before, segments url = before ++ last ∧ mayPrecede before = true) ↔
      (∀ part ∈ last, IsSegment part) ∧ ∃ lead, IsLead lead ∧ url = lead ++ joined last := by
  constructor
  · rintro ⟨hfull, hbefore⟩
    have hlast : ∀ part ∈ last, IsSegment part := by
      intro part hp
      obtain ⟨before, hs, -⟩ := hbefore
      refine ⟨hfull part hp, Text.not_mem_of_mem_splitAt (s := url) ?_⟩
      rw [show Text.splitAt (CodePoint.ofChar '/') url = before ++ last from hs]
      exact List.mem_append_right before hp
    exact ⟨hlast, (exists_before_iff hne fun part hp => (hlast part hp).2).1 hbefore⟩
  · rintro ⟨hlast, hlead⟩
    exact ⟨fun part hp => (hlast part hp).1,
      (exists_before_iff hne fun part hp => (hlast part hp).2).2 hlead⟩

/-- The root of all self links is a lead. -/
theorem isLead_baseUrl : IsLead baseUrl :=
  .inr ⟨by decide, "https://www.googleapis.com/compute/v1", by decide⟩

end Identity

/-! ### The grammar of URLs -/

namespace ZoneId

open Identity

/-- Every name of the identity is a segment. -/
structure WellFormed (z : ZoneId) : Prop where
  project : IsSegment z.project
  zone : IsSegment z.zone

/-- The zone as its URLs end in it. -/
def path (z : ZoneId) : Text := "projects/" ++ z.project ++ "/zones/" ++ z.zone

/-- The segments of the path. -/
def pathSegments (z : ZoneId) : List Text := [("projects" : Text), z.project, "zones", z.zone]

theorem pathSegments_ne_nil (z : ZoneId) : z.pathSegments ≠ [] := List.cons_ne_nil _ _

theorem path_eq_joined (z : ZoneId) : z.path = joined z.pathSegments := by
  have hp : ("projects/" : Text) = ("projects" : Text) ++ [CodePoint.ofChar '/'] := by decide
  have hz : ("/zones/" : Text) =
      [CodePoint.ofChar '/'] ++ (("zones" : Text) ++ [CodePoint.ofChar '/']) := by
    decide
  simp only [path, pathSegments, hp, hz, joined, List.intercalate_cons_cons,
    List.intercalate_singleton, List.append_assoc]

theorem wellFormed_iff (z : ZoneId) : z.WellFormed ↔ ∀ part ∈ z.pathSegments, IsSegment part := by
  simp only [pathSegments, List.forall_mem_cons, List.not_mem_nil, false_imp_iff, implies_true,
    and_true]
  exact ⟨fun h => ⟨by decide, h.project, by decide, h.zone⟩, fun h => ⟨h.2.1, h.2.2.2⟩⟩

theorem ofUrl?_eq_some_iff_segments {url : Text} {z : ZoneId} : ofUrl? url = some z ↔
    (∀ part ∈ z.pathSegments, part ≠ []) ∧
      ∃ before, segments url = before ++ z.pathSegments ∧ mayPrecede before = true := by
  simp only [pathSegments, List.forall_mem_cons, List.not_mem_nil, false_imp_iff, implies_true,
    and_true]
  constructor
  · intro h
    rw [ofUrl?] at h
    split at h
    · rename_i zone zones project projects before hs
      split_ifs at h with hc
      obtain ⟨hzone, rfl, hproject, rfl, hbefore⟩ := hc
      obtain rfl := Option.some.inj h
      refine ⟨⟨by decide, hproject, by decide, hzone⟩, before.reverse, ?_,
        (mayPrecede_reverse before).trans hbefore⟩
      rw [← List.reverse_reverse (segments url), hs]
      simp only [List.reverse_cons, List.append_assoc, List.cons_append, List.nil_append]
    · cases h
  · rintro ⟨⟨-, hproject, -, hzone⟩, before, hs, hbefore⟩
    rw [ofUrl?, hs, List.reverse_append]
    exact if_pos ⟨hzone, rfl, hproject, rfl, (mayPrecede_reverse before).trans hbefore⟩

/-- **A URL names a zone when it is a lead and the path of that zone.** -/
theorem ofUrl?_eq_some_iff {url : Text} {z : ZoneId} :
    ofUrl? url = some z ↔ z.WellFormed ∧ ∃ lead, IsLead lead ∧ url = lead ++ z.path := by
  rw [ofUrl?_eq_some_iff_segments, endsIn_iff z.pathSegments_ne_nil, ← wellFormed_iff,
    path_eq_joined]

theorem selfLink_eq (z : ZoneId) : z.selfLink = baseUrl ++ z.path := by
  simp only [selfLink, path, List.append_assoc]

end ZoneId

namespace MachineTypeId

open Identity

/-- The machine type as its URLs end in it. -/
def path (m : MachineTypeId) : Text := m.zoneId.path ++ "/machineTypes/" ++ m.machineType

/-- The segments of the path. -/
def pathSegments (m : MachineTypeId) : List Text :=
  m.zoneId.pathSegments ++ [("machineTypes" : Text), m.machineType]

theorem pathSegments_ne_nil (m : MachineTypeId) : m.pathSegments ≠ [] :=
  List.append_ne_nil_of_left_ne_nil m.zoneId.pathSegments_ne_nil _

theorem path_eq_joined (m : MachineTypeId) : m.path = joined m.pathSegments := by
  have ht : ("/machineTypes/" : Text) =
      [CodePoint.ofChar '/'] ++ (("machineTypes" : Text) ++ [CodePoint.ofChar '/']) := by
    decide
  rw [path, ZoneId.path_eq_joined, ht, pathSegments, joined, joined,
    Text.intercalate_append m.zoneId.pathSegments_ne_nil (List.cons_ne_nil _ _)]
  simp only [List.intercalate_cons_cons, List.intercalate_singleton, List.append_assoc]

theorem wellFormed_iff (m : MachineTypeId) :
    m.WellFormed ↔ ∀ part ∈ m.pathSegments, IsSegment part := by
  rw [pathSegments, List.forall_mem_append, ← ZoneId.wellFormed_iff]
  simp only [List.forall_mem_cons, List.not_mem_nil, false_imp_iff, implies_true, and_true]
  exact ⟨fun h => ⟨⟨h.project, h.zone⟩, by decide, h.machineType⟩,
    fun h => ⟨h.1.project, h.1.zone, h.2.2⟩⟩

theorem ofUrl?_eq_some_iff_segments {url : Text} {m : MachineTypeId} : ofUrl? url = some m ↔
    (∀ part ∈ m.pathSegments, part ≠ []) ∧
      ∃ before, segments url = before ++ m.pathSegments ∧ mayPrecede before = true := by
  simp only [pathSegments, ZoneId.pathSegments, zoneId, List.cons_append, List.nil_append,
    List.forall_mem_cons, List.not_mem_nil, false_imp_iff, implies_true, and_true]
  constructor
  · intro h
    rw [ofUrl?] at h
    split at h
    · rename_i name types zone zones project projects before hs
      split_ifs at h with hc
      obtain ⟨hname, rfl, hzone, rfl, hproject, rfl, hbefore⟩ := hc
      obtain rfl := Option.some.inj h
      refine ⟨⟨by decide, hproject, by decide, hzone, by decide, hname⟩, before.reverse, ?_,
        (mayPrecede_reverse before).trans hbefore⟩
      rw [← List.reverse_reverse (segments url), hs]
      simp only [List.reverse_cons, List.append_assoc, List.cons_append, List.nil_append]
    · cases h
  · rintro ⟨⟨-, hproject, -, hzone, -, hname⟩, before, hs, hbefore⟩
    rw [ofUrl?, hs, List.reverse_append]
    exact if_pos ⟨hname, rfl, hzone, rfl, hproject, rfl,
      (mayPrecede_reverse before).trans hbefore⟩

/-- **A URL names a machine type when it is a lead and the path of that machine type.** -/
theorem ofUrl?_eq_some_iff {url : Text} {m : MachineTypeId} :
    ofUrl? url = some m ↔ m.WellFormed ∧ ∃ lead, IsLead lead ∧ url = lead ++ m.path := by
  rw [ofUrl?_eq_some_iff_segments, endsIn_iff m.pathSegments_ne_nil, ← wellFormed_iff,
    path_eq_joined]

theorem selfLink_eq_path (m : MachineTypeId) : m.selfLink = baseUrl ++ m.path := by
  simp only [selfLink, path, ZoneId.selfLink_eq, List.append_assoc]

end MachineTypeId

/-! ### The laws of both kinds -/

namespace Identity

variable {R : Type} {kind : ResourceKind} {WellFormed : R → Prop} {path selfLink : R → Text}
  {ofUrl? : Text → Option R} {ofUrl : Value → Except Failure R} {matchesUrl : Value → Bool}

/-- How texts name the resources of one kind. -/
structure UrlLaws (kind : ResourceKind) (WellFormed : R → Prop) (path selfLink : R → Text)
    (ofUrl : Value → Except Failure R) (matchesUrl : Value → Bool) : Prop where
  /-- A URL is a lead and the path of the resource it names. -/
  names (url : Text) (r : R) : ofUrl (.text url) = .ok r ↔
    WellFormed r ∧ ∃ lead, IsLead lead ∧ url = lead ++ path r
  /-- No URL is that in two ways. -/
  unique {lead lead' : Text} {r r' : R} (hl : IsLead lead) (hl' : IsLead lead')
    (hr : WellFormed r) (hr' : WellFormed r') (h : lead ++ path r = lead' ++ path r') :
    lead = lead' ∧ r = r'
  /-- Every other text is rejected as a URL of this kind. -/
  malformed (url : Text) (h : ¬ ∃ r, WellFormed r ∧ ∃ lead, IsLead lead ∧ url = lead ++ path r) :
    ofUrl (.text url) = .error (.rejected (.malformedUrl (.text url) kind))
  /-- A value matches when it is read. -/
  matches_iff (v : Value) : matchesUrl v = true ↔ ∃ r, ofUrl v = .ok r
  /-- A self link is read as its resource. -/
  ofUrl_selfLink {r : R} (h : WellFormed r) : ofUrl (.text (selfLink r)) = .ok r
  /-- No two resources share a self link. -/
  selfLink_inj {r r' : R} (hr : WellFormed r) (hr' : WellFormed r')
    (h : selfLink r = selfLink r') : r = r'

/-- The laws hold when the URLs of a kind are read by their grammar. -/
theorem UrlLaws.of_grammar
    (hread : ∀ url r, ofUrl? url = some r ↔
      WellFormed r ∧ ∃ lead, IsLead lead ∧ url = lead ++ path r)
    (hlink : ∀ r, selfLink r = baseUrl ++ path r)
    (hok : ∀ v r, ofUrl v = .ok r ↔ ∃ url, v = .text url ∧ ofUrl? url = some r)
    (hreject : ∀ url, ofUrl? url = none →
      ofUrl (.text url) = .error (.rejected (.malformedUrl (.text url) kind)))
    (hmatch : ∀ v, matchesUrl v = true ↔ ∃ r, ofUrl v = .ok r) :
    UrlLaws kind WellFormed path selfLink ofUrl matchesUrl := by
  have hnames : ∀ url r, ofUrl (.text url) = .ok r ↔
      WellFormed r ∧ ∃ lead, IsLead lead ∧ url = lead ++ path r := by
    intro url r
    rw [hok, ← hread]
    exact ⟨fun ⟨_, hv, h⟩ => Value.text.inj hv ▸ h, fun h => ⟨url, rfl, h⟩⟩
  have hself : ∀ {r}, WellFormed r → ofUrl (.text (selfLink r)) = .ok r := fun hr =>
    (hnames _ _).2 ⟨hr, baseUrl, isLead_baseUrl, hlink _⟩
  refine ⟨hnames, ?_, ?_, hmatch, hself, ?_⟩
  · intro lead lead' r r' hl hl' hr hr' h
    have hfirst : ofUrl (.text (lead ++ path r)) = .ok r := (hnames _ _).2 ⟨hr, lead, hl, rfl⟩
    have hsecond : ofUrl (.text (lead ++ path r)) = .ok r' := (hnames _ _).2 ⟨hr', lead', hl', h⟩
    obtain rfl : r = r' := Except.ok.inj (hfirst.symm.trans hsecond)
    exact ⟨List.append_cancel_right h, rfl⟩
  · intro url hno
    refine hreject url (Option.eq_none_iff_forall_ne_some.2 fun r hr => hno ⟨r, ?_⟩)
    exact (hread url r).1 hr
  · intro r r' hr hr' h
    exact Except.ok.inj ((hself hr).symm.trans (h ▸ hself hr'))

end Identity

namespace ZoneId

theorem ofUrl_eq_ok_iff {v : Value} {z : ZoneId} :
    ofUrl v = .ok z ↔ ∃ url, v = .text url ∧ ofUrl? url = some z := by
  cases v with
  | text url =>
    rw [ofUrl]
    cases h : ofUrl? url with
    | none => simp [h]
    | some y => simp [h]
  | _ => simp [ofUrl]

theorem ofUrl_of_eq_none {url : Text} (h : ofUrl? url = none) :
    ofUrl (.text url) = .error (.rejected (.malformedUrl (.text url) .zone)) := by
  rw [ofUrl, h]
  rfl

theorem matchesUrl_iff (v : Value) : matchesUrl v = true ↔ ∃ z, ofUrl v = .ok z := by
  simp only [ofUrl_eq_ok_iff]
  cases v with
  | text url => simp [matchesUrl, Option.isSome_iff_exists]
  | _ => simp [matchesUrl]

theorem urlLaws : Identity.UrlLaws .zone WellFormed path selfLink ofUrl matchesUrl :=
  .of_grammar (fun _ _ => ofUrl?_eq_some_iff) selfLink_eq (fun _ _ => ofUrl_eq_ok_iff)
    (fun _ => ofUrl_of_eq_none) matchesUrl_iff

end ZoneId

namespace MachineTypeId

theorem ofUrl_eq_ok_iff {v : Value} {m : MachineTypeId} :
    ofUrl v = .ok m ↔ ∃ url, v = .text url ∧ ofUrl? url = some m := by
  cases v with
  | text url =>
    rw [ofUrl]
    cases h : ofUrl? url with
    | none => simp [h]
    | some n => simp [h]
  | _ => simp [ofUrl]

theorem ofUrl_of_eq_none {url : Text} (h : ofUrl? url = none) :
    ofUrl (.text url) = .error (.rejected (.malformedUrl (.text url) .machineType)) := by
  rw [ofUrl, h]
  rfl

theorem matchesUrl_iff (v : Value) : matchesUrl v = true ↔ ∃ m, ofUrl v = .ok m := by
  simp only [ofUrl_eq_ok_iff]
  cases v with
  | text url => simp [matchesUrl, Option.isSome_iff_exists]
  | _ => simp [matchesUrl]

theorem urlLaws : Identity.UrlLaws .machineType WellFormed path selfLink ofUrl matchesUrl :=
  .of_grammar (fun _ _ => ofUrl?_eq_some_iff) selfLink_eq_path (fun _ _ => ofUrl_eq_ok_iff)
    (fun _ => ofUrl_of_eq_none) matchesUrl_iff

end MachineTypeId

namespace Identity

/-- No URL names both a zone and a machine type: the last segment but one tells them apart. -/
theorem not_both (v : Value) :
    ¬ (ZoneId.matchesUrl v = true ∧ MachineTypeId.matchesUrl v = true) := by
  rintro ⟨hzone, htype⟩
  obtain ⟨z, hz⟩ := (ZoneId.matchesUrl_iff v).1 hzone
  obtain ⟨m, hm⟩ := (MachineTypeId.matchesUrl_iff v).1 htype
  obtain ⟨url, rfl, hreadz⟩ := ZoneId.ofUrl_eq_ok_iff.1 hz
  obtain ⟨_, hurl, hreadm⟩ := MachineTypeId.ofUrl_eq_ok_iff.1 hm
  obtain rfl := Value.text.inj hurl
  obtain ⟨-, before, hs, -⟩ := ZoneId.ofUrl?_eq_some_iff_segments.1 hreadz
  obtain ⟨-, before', hs', -⟩ := MachineTypeId.ofUrl?_eq_some_iff_segments.1 hreadm
  have h := congrArg List.reverse (hs.symm.trans hs')
  rw [MachineTypeId.pathSegments, ← List.append_assoc, List.reverse_append, List.reverse_append]
    at h
  have hwords : ("zones" : Text) = "machineTypes" :=
    (List.cons.inj (List.cons.inj h).2).1
  exact absurd hwords (by decide)

/-- **URLs name zones and machine types by their grammar**, each URL one resource, and no URL one of
each kind. -/
theorem urls_name_resources :
    UrlLaws .zone ZoneId.WellFormed ZoneId.path ZoneId.selfLink ZoneId.ofUrl ZoneId.matchesUrl ∧
      UrlLaws .machineType MachineTypeId.WellFormed MachineTypeId.path MachineTypeId.selfLink
        MachineTypeId.ofUrl MachineTypeId.matchesUrl ∧
      ∀ v, ¬ (ZoneId.matchesUrl v = true ∧ MachineTypeId.matchesUrl v = true) :=
  ⟨ZoneId.urlLaws, MachineTypeId.urlLaws, not_both⟩

/-- A machine type whose names are the words of its path, one with a line feed. -/
def wordyType : MachineTypeId := ⟨"projects", "zones\n", "machineTypes"⟩

theorem urls_name_resources_wordyType :
    wordyType.WellFormed ∧ MachineTypeId.ofUrl (.text wordyType.selfLink) = .ok wordyType ∧
      MachineTypeId.ofUrl (.text wordyType.path) = .ok wordyType ∧
      ZoneId.ofUrl (.text wordyType.path) =
        .error (.rejected (.malformedUrl (.text wordyType.path) .zone)) := by
  have hm : wordyType.WellFormed := ⟨by decide, by decide, by decide⟩
  obtain ⟨hzones, htypes, hboth⟩ := urls_name_resources
  have hread : MachineTypeId.ofUrl (.text wordyType.path) = .ok wordyType :=
    (htypes.names _ _).2 ⟨hm, [], .inl rfl, rfl⟩
  refine ⟨hm, htypes.ofUrl_selfLink hm, hread, hzones.malformed _ ?_⟩
  rintro ⟨z, hz⟩
  exact hboth _ ⟨(hzones.matches_iff _).2 ⟨z, (hzones.names _ _).2 hz⟩,
    (htypes.matches_iff _).2 ⟨wordyType, hread⟩⟩

end Identity

end MachineCatalog
