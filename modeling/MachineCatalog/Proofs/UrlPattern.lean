/-
# URLs found by search

The URLs of zones and of machine types are the texts that match a pattern: a lead, then
given words with names between them (`UrlPattern.Piece`).  `search` lists what a pattern
captures in the order in which a search with backtracking finds it: of the leads and of
the names the longest is tried first, and after the last piece one line feed may be left
over.

What is found first is what the last segments of the text name
(`head?_search_zonePieces`, `head?_search_machineTypePieces`).  For the last piece is a
name, which can take a line feed, so a match that leaves one over is not the first
(`fits_of_head?_search`); and a text fits a pattern in one way at most.
-/

import MachineCatalog.Proofs.ResourceUrl

namespace MachineCatalog

namespace UrlPattern

open Identity

/-- A piece of a pattern. -/
inductive Piece where
  /-- What may stand before the path. -/
  | lead
  /-- The given text. -/
  | word (w : Text)
  /-- A name, which is captured. -/
  | name

/-- What is after each slash of the first line, the last slash first. -/
def afterSlashes : Text → List Text
  | [] => []
  | c :: rest =>
    if c = '\n' then [] else afterSlashes rest ++ if c = '/' then [rest] else []

/-- The names that a text begins with and what is after each, the longest first. -/
def names : Text → List (Text × Text)
  | [] => []
  | c :: rest =>
    if c = '/' then [] else
      ((names rest).map fun way => (c :: way.1, way.2)) ++ [([c], rest)]

/-- What a piece captures of a text and what it leaves, the preferred way first. -/
def Piece.ways : Piece → Text → List (List Text × Text)
  | .lead, s => (afterSlashes s ++ [s]).map fun rest => ([], rest)
  | .word w, s => if w <+: s then [([], s.drop w.length)] else []
  | .name, s => (names s).map fun way => ([way.1], way.2)

/-- What a pattern captures of a text, the preferred way first. -/
def search : List Piece → Text → List (List Text)
  | [], s => if s = [] ∨ s = "\n" then [[]] else []
  | piece :: pieces, s =>
    (piece.ways s).flatMap fun way => (search pieces way.2).map fun more => way.1 ++ more

/-- The pattern of zones. -/
def zonePieces : List Piece := [.lead, .word "projects/", .name, .word "/zones/", .name]

/-- The pattern of machine types. -/
def machineTypePieces : List Piece := zonePieces ++ [.word "/machineTypes/", .name]

/-! ### What a piece takes -/

/-- The piece can take the text, and captures these names of it. -/
def Piece.Takes : Piece → List Text → Text → Prop
  | .lead, captured, taken => captured = [] ∧ IsLead taken
  | .word w, captured, taken => captured = [] ∧ taken = w
  | .name, captured, taken => captured = [taken] ∧ IsSegment taken

theorem mem_afterSlashes_iff {s rest : Text} : rest ∈ afterSlashes s ↔
    ∃ t, CodePoint.ofChar '\n' ∉ t ∧ s = t ++ CodePoint.ofChar '/' :: rest := by
  induction s with
  | nil => simp [afterSlashes]
  | cons c s ih =>
    have hhere : rest ∈ (if c = CodePoint.ofChar '/' then [s] else []) ↔
        c = CodePoint.ofChar '/' ∧ s = rest := by
      split_ifs with hc <;> simp [hc, eq_comm]
    constructor
    · intro h
      rw [afterSlashes] at h
      by_cases hfeed : c = CodePoint.ofChar '\n'
      · rw [if_pos hfeed] at h
        exact absurd h List.not_mem_nil
      · rw [if_neg hfeed] at h
        rcases List.mem_append.1 h with h | h
        · obtain ⟨t, ht, rfl⟩ := ih.1 h
          exact ⟨c :: t, List.not_mem_cons_of_ne_of_not_mem (Ne.symm hfeed) ht, rfl⟩
        · obtain ⟨rfl, rfl⟩ := hhere.1 h
          exact ⟨[], List.not_mem_nil, rfl⟩
    · rintro ⟨t, ht, hs⟩
      rw [afterSlashes]
      cases t with
      | nil =>
        obtain ⟨rfl, rfl⟩ := List.cons.inj hs
        rw [if_neg (by decide)]
        exact List.mem_append_right _ (hhere.2 ⟨rfl, rfl⟩)
      | cons d t =>
        obtain ⟨rfl, rfl⟩ := List.cons.inj hs
        rw [List.mem_cons, not_or] at ht
        rw [if_neg (Ne.symm ht.1)]
        exact List.mem_append_left _ (ih.2 ⟨t, ht.2, rfl⟩)

theorem mem_names_iff {s n rest : Text} : (n, rest) ∈ names s ↔ IsSegment n ∧ s = n ++ rest := by
  induction s generalizing n with
  | nil => simp +contextual [names, IsSegment]
  | cons c s ih =>
    constructor
    · intro h
      rw [names] at h
      split_ifs at h with hslash
      · exact absurd h List.not_mem_nil
      · rcases List.mem_append.1 h with h | h
        · obtain ⟨⟨m, t⟩, hm, hway⟩ := List.mem_map.1 h
          obtain ⟨rfl, rfl⟩ := Prod.mk.inj hway
          obtain ⟨⟨-, hno⟩, rfl⟩ := ih.1 hm
          exact ⟨⟨List.cons_ne_nil _ _,
            List.not_mem_cons_of_ne_of_not_mem (Ne.symm hslash) hno⟩, rfl⟩
        · obtain ⟨rfl, rfl⟩ := Prod.mk.inj (List.mem_singleton.1 h)
          exact ⟨⟨List.cons_ne_nil _ _,
            List.not_mem_cons_of_ne_of_not_mem (Ne.symm hslash) List.not_mem_nil⟩, rfl⟩
    · rintro ⟨⟨hne, hno⟩, hs⟩
      cases n with
      | nil => exact absurd rfl hne
      | cons d n =>
        obtain ⟨rfl, rfl⟩ := List.cons.inj hs
        rw [List.mem_cons, not_or] at hno
        rw [names, if_neg (Ne.symm hno.1), List.mem_append]
        cases n with
        | nil => exact .inr (List.mem_singleton_self _)
        | cons e n =>
          exact .inl (List.mem_map.2 ⟨_, ih.2 ⟨⟨List.cons_ne_nil _ _, hno.2⟩, rfl⟩, rfl⟩)

/-- A piece captures and leaves what is before and after a text it can take. -/
theorem Piece.mem_ways_iff {piece : Piece} {s rest : Text} {captured : List Text} :
    (captured, rest) ∈ piece.ways s ↔ ∃ taken, piece.Takes captured taken ∧ s = taken ++ rest := by
  cases piece with
  | lead =>
    simp only [ways, Takes, List.mem_map, List.mem_append, mem_afterSlashes_iff,
      List.mem_singleton, Prod.mk.injEq]
    constructor
    · rintro ⟨_, h, rfl, rfl⟩
      rcases h with ⟨t, ht, rfl⟩ | rfl
      · refine ⟨t ++ [CodePoint.ofChar '/'], ⟨rfl, .inr ⟨?_, t, rfl⟩⟩, by simp⟩
        rw [List.mem_append, not_or]
        exact ⟨ht, by decide⟩
      · exact ⟨[], ⟨rfl, .inl rfl⟩, rfl⟩
    · rintro ⟨taken, ⟨rfl, rfl | ⟨hfeed, t, rfl⟩⟩, rfl⟩
      · exact ⟨_, .inr rfl, rfl, rfl⟩
      · refine ⟨rest, .inl ⟨t, fun h => hfeed (List.mem_append_left _ h), ?_⟩, rfl, rfl⟩
        rw [List.append_assoc, List.singleton_append]
  | word w =>
    simp only [ways, Takes]
    constructor
    · intro h
      split_ifs at h with hw
      · obtain ⟨rfl, rfl⟩ := Prod.mk.inj (List.mem_singleton.1 h)
        exact ⟨w, ⟨rfl, rfl⟩, (List.prefix_iff_eq_append.1 hw).symm⟩
      · exact absurd h List.not_mem_nil
    · rintro ⟨taken, ⟨rfl, rfl⟩, rfl⟩
      rw [if_pos (List.prefix_append _ _), List.drop_left]
      exact List.mem_singleton_self _
  | name =>
    simp only [ways, Takes, List.mem_map, Prod.exists, mem_names_iff, Prod.mk.injEq]
    constructor
    · rintro ⟨n, t, ⟨hn, rfl⟩, rfl, rfl⟩
      exact ⟨n, ⟨rfl, hn⟩, rfl⟩
    · rintro ⟨n, ⟨rfl, hn⟩, rfl⟩
      exact ⟨n, rest, ⟨hn, rfl⟩, rfl, rfl⟩

/-! ### What a pattern fits -/

/-- The pieces take the whole text, one after the other, and capture these names of it. -/
inductive Fits : List Piece → List Text → Text → Prop
  | nil : Fits [] [] []
  | cons {piece : Piece} {pieces : List Piece} {captured more : List Text} {taken rest : Text}
      (h : piece.Takes captured taken) (hrest : Fits pieces more rest) :
      Fits (piece :: pieces) (captured ++ more) (taken ++ rest)

theorem mem_search_of_fits {pieces : List Piece} {captured : List Text} {s : Text}
    (h : Fits pieces captured s) : captured ∈ search pieces s := by
  induction h with
  | nil => exact List.mem_singleton_self _
  | cons h _ ih =>
    rw [search, List.mem_flatMap]
    exact ⟨_, Piece.mem_ways_iff.2 ⟨_, h, rfl⟩, List.mem_map_of_mem ih⟩

/-- Of a segment the longest name is the whole. -/
theorem head?_names {s : Text} (h : IsSegment s) : (names s).head? = some (s, []) := by
  induction s with
  | nil => exact absurd rfl h.1
  | cons c s ih =>
    have hslash : c ≠ CodePoint.ofChar '/' := fun hc => h.2 (hc ▸ List.mem_cons_self)
    rw [names, if_neg hslash]
    cases s with
    | nil => rfl
    | cons d s =>
      rw [List.head?_append, List.head?_map,
        ih ⟨List.cons_ne_nil _ _, fun hmem => h.2 (List.mem_cons_of_mem _ hmem)⟩]
      rfl

/-- A name alone is found in segments only, and first as the whole. -/
theorem eq_of_head?_search_name {s : Text} {captured : List Text}
    (h : (search [.name] s).head? = some captured) : IsSegment s ∧ captured = [s] := by
  have hs : IsSegment s := by
    obtain ⟨way, hway, hmore⟩ := List.mem_flatMap.1 (List.mem_of_head? h)
    obtain ⟨taken, ⟨-, htaken⟩, rfl⟩ := Piece.mem_ways_iff.1 hway
    obtain ⟨more, hend, -⟩ := List.mem_map.1 hmore
    rw [search] at hend
    split_ifs at hend with hrest
    · refine ⟨fun he => htaken.1 (List.append_eq_nil_iff.1 he).1, fun hslash => ?_⟩
      rcases List.mem_append.1 hslash with hslash | hslash
      · exact htaken.2 hslash
      · rcases hrest with hrest | hrest
        · exact absurd (hrest ▸ hslash) List.not_mem_nil
        · exact absurd (hrest ▸ hslash) (by decide)
    · exact absurd hend List.not_mem_nil
  obtain ⟨more, hnames⟩ := List.head?_eq_some_iff.1 (head?_names hs)
  simp only [search, Piece.ways, hnames, List.map_cons, List.flatMap_cons] at h
  exact ⟨hs, (Option.some.inj h).symm⟩

/-- **What a pattern that ends in a name captures first takes the whole text.** -/
theorem fits_of_head?_search {pieces : List Piece} {captured : List Text} {s : Text}
    (h : (search (pieces ++ [.name]) s).head? = some captured) :
    Fits (pieces ++ [.name]) captured s := by
  induction pieces generalizing captured s with
  | nil =>
    obtain ⟨hs, rfl⟩ := eq_of_head?_search_name h
    have hfits : Fits [.name] ([s] ++ []) (s ++ []) := .cons ⟨rfl, hs⟩ .nil
    rwa [List.append_nil, List.append_nil] at hfits
  | cons piece pieces ih =>
    rw [List.cons_append, search, List.head?_flatMap] at h
    obtain ⟨way, hway, hmore⟩ := List.exists_of_findSome?_eq_some h
    rw [List.head?_map] at hmore
    obtain ⟨more, hfirst, rfl⟩ := Option.map_eq_some_iff.1 hmore
    obtain ⟨taken, htaken, rfl⟩ := Piece.mem_ways_iff.1 hway
    exact .cons htaken (ih hfirst)

/-- **A search finds the one way in which a text fits.** -/
theorem head?_search (pieces : List Piece) {s : Text} {found : Option (List Text)}
    (h : ∀ captured, Fits (pieces ++ [.name]) captured s ↔ found = some captured) :
    (search (pieces ++ [.name]) s).head? = found := by
  cases hfirst : (search (pieces ++ [.name]) s).head? with
  | some captured => exact ((h captured).1 (fits_of_head?_search hfirst)).symm
  | none =>
    rw [List.head?_eq_none_iff] at hfirst
    refine (Option.eq_none_iff_forall_ne_some.2 fun captured hf => ?_).symm
    have hmem := mem_search_of_fits ((h captured).2 hf)
    rw [hfirst] at hmem
    exact absurd hmem List.not_mem_nil

/-! ### Zones and machine types -/

theorem fits_nil_iff {captured : List Text} {s : Text} :
    Fits [] captured s ↔ captured = [] ∧ s = [] := by
  constructor
  · rintro ⟨⟩
    exact ⟨rfl, rfl⟩
  · rintro ⟨rfl, rfl⟩
    exact .nil

theorem fits_lead_iff {pieces : List Piece} {captured : List Text} {s : Text} :
    Fits (.lead :: pieces) captured s ↔
      ∃ lead rest, IsLead lead ∧ s = lead ++ rest ∧ Fits pieces captured rest := by
  constructor
  · rintro (_ | ⟨⟨rfl, hlead⟩, hrest⟩)
    exact ⟨_, _, hlead, rfl, hrest⟩
  · rintro ⟨lead, rest, hlead, rfl, hrest⟩
    have htakes : Piece.lead.Takes [] lead := ⟨rfl, hlead⟩
    exact .cons htakes hrest

theorem fits_word_iff {w : Text} {pieces : List Piece} {captured : List Text} {s : Text} :
    Fits (.word w :: pieces) captured s ↔ ∃ rest, s = w ++ rest ∧ Fits pieces captured rest := by
  constructor
  · rintro (_ | ⟨⟨rfl, rfl⟩, hrest⟩)
    exact ⟨_, rfl, hrest⟩
  · rintro ⟨rest, rfl, hrest⟩
    have htakes : (Piece.word w).Takes [] w := ⟨rfl, rfl⟩
    exact .cons htakes hrest

theorem fits_name_iff {pieces : List Piece} {captured : List Text} {s : Text} :
    Fits (.name :: pieces) captured s ↔ ∃ n more rest, IsSegment n ∧ captured = n :: more ∧
      s = n ++ rest ∧ Fits pieces more rest := by
  constructor
  · rintro (_ | ⟨⟨rfl, hn⟩, hrest⟩)
    exact ⟨_, _, _, hn, rfl, rfl, hrest⟩
  · rintro ⟨n, more, rest, hn, rfl, rfl, hrest⟩
    have htakes : Piece.name.Takes [n] n := ⟨rfl, hn⟩
    exact .cons htakes hrest

theorem fits_zonePieces_iff {captured : List Text} {url : Text} :
    Fits zonePieces captured url ↔
      ((ZoneId.ofUrl? url).map fun z => [z.project, z.zone]) = some captured := by
  simp only [zonePieces, fits_lead_iff, fits_word_iff, fits_name_iff, fits_nil_iff,
    Option.map_eq_some_iff, ZoneId.ofUrl?_eq_some_iff, ZoneId.path]
  constructor
  · rintro ⟨lead, _, hlead, rfl, _, rfl, project, _, _, hproject, rfl, rfl, _, rfl, zone, _, _,
      hzone, rfl, rfl, rfl, rfl⟩
    refine ⟨⟨project, zone⟩, ⟨⟨hproject, hzone⟩, lead, hlead, ?_⟩, rfl⟩
    simp only [List.append_assoc, List.append_nil]
  · rintro ⟨z, ⟨hz, lead, hlead, rfl⟩, rfl⟩
    simp only [List.append_assoc]
    exact ⟨lead, _, hlead, rfl, _, rfl, z.project, _, _, hz.project, rfl, rfl, _, rfl, z.zone, _,
      [], hz.zone, rfl, (List.append_nil _).symm, rfl, rfl⟩

theorem fits_machineTypePieces_iff {captured : List Text} {url : Text} :
    Fits machineTypePieces captured url ↔
      ((MachineTypeId.ofUrl? url).map fun m => [m.project, m.zone, m.machineType]) =
        some captured := by
  simp only [machineTypePieces, zonePieces, List.cons_append, List.nil_append, fits_lead_iff,
    fits_word_iff, fits_name_iff, fits_nil_iff, Option.map_eq_some_iff,
    MachineTypeId.ofUrl?_eq_some_iff, MachineTypeId.path, MachineTypeId.zoneId, ZoneId.path]
  constructor
  · rintro ⟨lead, _, hlead, rfl, _, rfl, project, _, _, hproject, rfl, rfl, _, rfl, zone, _, _,
      hzone, rfl, rfl, _, rfl, name, _, _, hname, rfl, rfl, rfl, rfl⟩
    refine ⟨⟨project, zone, name⟩, ⟨⟨hproject, hzone, hname⟩, lead, hlead, ?_⟩, rfl⟩
    simp only [List.append_assoc, List.append_nil]
  · rintro ⟨m, ⟨hm, lead, hlead, rfl⟩, rfl⟩
    simp only [List.append_assoc]
    exact ⟨lead, _, hlead, rfl, _, rfl, m.project, _, _, hm.project, rfl, rfl, _, rfl, m.zone, _, _,
      hm.zone, rfl, rfl, _, rfl, m.machineType, _, [], hm.machineType, rfl,
      (List.append_nil _).symm, rfl, rfl⟩

/-- **A search for zones finds first what the URL names by its last segments.** -/
theorem head?_search_zonePieces (url : Text) : (search zonePieces url).head? =
    (ZoneId.ofUrl? url).map fun z => [z.project, z.zone] :=
  head?_search [.lead, .word "projects/", .name, .word "/zones/"] fun _ => fits_zonePieces_iff

/-- **A search for machine types finds first what the URL names by its last segments.** -/
theorem head?_search_machineTypePieces (url : Text) : (search machineTypePieces url).head? =
    (MachineTypeId.ofUrl? url).map fun m => [m.project, m.zone, m.machineType] :=
  head?_search (zonePieces ++ [Piece.word ("/machineTypes/" : Text)]) fun _ =>
    fits_machineTypePieces_iff

/-- Of a name with a line feed at its end there are two ways, and the first keeps the line feed. -/
example : search zonePieces "a/projects/p/zones/z\n" =
    [[("p" : Text), "z\n"], [("p" : Text), "z"]] := by
  decide

end UrlPattern

end MachineCatalog
