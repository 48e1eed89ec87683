/-
# Documents of any structure

Lenient loading passes over what has the wrong shape: documents of no known shape,
items that are no list, scopes that are no mappings, and members that are no
mappings.  One thing is not passed over.  A document whose kind is that of an
aggregated response may keep something else than scopes under its items, a list or a
text or a number, and if that counts, the loading ends (`structureDefect?`).  Beyond
JSON, so does a kind with an integer that is too long to be shown.

When every wire form is accepted or rejected, lenient loading ends with the first
such defect, and returns what is accepted when there is none
(`Loading.lenient_outcome`).  On the way it tells what it leaves out (`Loading.told`), in
the words of the documents, and a console may refuse the marks in these.
-/

import MachineCatalog.Proofs.Loading.Shapes

namespace MachineCatalog

theorem Value.isList_eq_false_of_entries? {v : Value} {fields : List (Value × Value)}
    (h : v.entries? = some fields) : v.isList = false := by
  rw [isList, items?]
  rw [entries?] at h
  split at h
  · rename_i hv
    rw [hv]
    rfl
  · cases h

namespace Loading

/-- The defect in the structure of a document, if it has one: its kind cannot be shown, or
it is said to keep machine types by scope and keeps something else. -/
def structureDefect? (doc : Value) : Option Defect :=
  match doc.entries? with
  | none => none
  | some fields =>
    let items := Value.get fields "items"
    if (Value.get fields "kind").holdsLongInteger then some .longInteger
    else if (Value.get fields "kind").isText "compute#machineTypeAggregatedList" &&
        items.counts && !items.isMapping then some (.notScopes items)
    else none

theorem detectShape_of_entries? {doc : Value} {fields : List (Value × Value)}
    (h : doc.entries? = some fields) : detectShape doc = shapeOfFields fields := by
  rw [detectShape, Value.isList_eq_false_of_entries? h, if_neg Bool.false_ne_true]
  simp only [h]

/-- A defect in the structure ends the loading. -/
theorem loadDocument_of_structureDefect? {doc : Value} {what : Defect}
    (h : structureDefect? doc = some what) (skip : Bool) (source : Text) :
    loadDocument skip source doc = ⟨[], .error (.defect what)⟩ := by
  unfold structureDefect? at h
  split at h
  · exact absurd h nofun
  · rename_i fields hf
    dsimp only at h
    rw [loadDocument, detectShape_of_entries? hf]
    split_ifs at h with hk hi
    · obtain rfl := Option.some.inj h
      rw [shapeOfFields, hk, if_pos rfl]
      rfl
    · obtain rfl := Option.some.inj h
      simp only [Bool.and_eq_true, Bool.not_eq_true'] at hi
      obtain ⟨⟨hkind, hcounts⟩, hmapping⟩ := hi
      have hp : payloads .aggregatedList doc = abort (.notScopes (Value.get fields "items")) := by
        have he : (Value.get fields "items").entries? = none :=
          Option.not_isSome_iff_eq_none.1 (Bool.eq_false_iff.1 hmapping)
        simp [payloads, hf, scopedObjects, hcounts, he]
      rw [shapeOfFields_eq (eq_false_of_ne_true hk), hkind, Bool.true_or, if_pos rfl,
        Noted.lift_ok, Noted.bind_of_ok _ rfl]
      simp only [hp]
      rfl

/-- The wire forms of an aggregated response are found when its items are scopes, or do
not count. -/
theorem exists_payloads_aggregatedList {doc : Value} {fields : List (Value × Value)}
    (hf : doc.entries? = some fields)
    (h : (Value.get fields "items").counts = true → (Value.get fields "items").isMapping = true) :
    ∃ ps, payloads .aggregatedList doc = .ok ps := by
  simp only [payloads, hf, Option.getD_some, scopedObjects]
  cases hc : (Value.get fields "items").counts with
  | false => exact ⟨[], rfl⟩
  | true =>
    obtain ⟨scopes, hs⟩ := Option.isSome_iff_exists.1 (h hc)
    exact ⟨_, by simp only [hs]; rfl⟩

/-- Without such a defect the shape is found, and the wire forms too. -/
theorem exists_payloads {doc : Value} (h : structureDefect? doc = none) :
    ∃ shape ps, detectShape doc = .ok shape ∧ payloads shape doc = .ok ps := by
  cases hf : doc.entries? with
  | none =>
    cases hl : doc.isList with
    | true => exact ⟨.array, _, by rw [detectShape, hl, if_pos rfl], rfl⟩
    | false => exact ⟨.unknown, _, by simp [detectShape, hl, hf], rfl⟩
  | some fields =>
    simp only [structureDefect?, hf] at h
    split_ifs at h with hk hi
    rw [detectShape_of_entries? hf, shapeOfFields_eq (eq_false_of_ne_true hk)]
    split_ifs with ha
    · have hscopes : (Value.get fields "items").counts = true →
          (Value.get fields "items").isMapping = true := by
        intro hc
        rw [Bool.or_eq_true] at ha
        rcases ha with hkind | hmapping
        · simpa [hkind, hc] using hi
        · exact hmapping
      obtain ⟨ps, hp⟩ := exists_payloads_aggregatedList hf hscopes
      exact ⟨_, ps, rfl, hp⟩
    · exact ⟨_, _, rfl, rfl⟩
    · exact ⟨_, _, rfl, rfl⟩
    · exact ⟨_, _, rfl, rfl⟩

theorem isMapping_of_mem_objects {v p : Value} (h : p ∈ objects v) : p.isMapping = true :=
  (List.mem_filter.1 h).2

theorem isMapping_of_mem_payloads {shape : Shape} {doc p : Value} {ps : List Value}
    (hs : detectShape doc = .ok shape) (hp : payloads shape doc = .ok ps) (h : p ∈ ps) :
    p.isMapping = true := by
  cases shape with
  | unknown =>
    obtain rfl := Except.ok.inj hp
    exact absurd h List.not_mem_nil
  | array =>
    obtain rfl := Except.ok.inj hp
    exact isMapping_of_mem_objects h
  | list =>
    obtain rfl := Except.ok.inj hp
    exact isMapping_of_mem_objects h
  | aggregatedList =>
    simp only [payloads, scopedObjects] at hp
    split_ifs at hp
    · obtain rfl := Except.ok.inj hp
      exact absurd h List.not_mem_nil
    · split at hp
      · obtain rfl := Except.ok.inj hp
        obtain ⟨scope, -, hm⟩ := List.mem_flatMap.1 h
        unfold scopeObjects at hm
        split at hm
        · exact isMapping_of_mem_objects hm
        · exact absurd hm List.not_mem_nil
      · cases hp
  | machineType =>
    obtain rfl := Except.ok.inj hp
    obtain rfl := List.mem_singleton.1 h
    unfold detectShape at hs
    split at hs
    · cases hs
    · split at hs
      · rename_i fields hf
        rw [Value.isMapping, hf, Option.isSome_some]
      · cases hs

/-- Only mappings are offered. -/
theorem isMapping_of_mem_offered {doc p : Value} (h : p ∈ offered doc) : p.isMapping = true := by
  unfold offered at h
  split at h
  · rename_i shape hs
    cases hp : payloads shape doc with
    | ok ps =>
      rw [hp] at h
      exact isMapping_of_mem_payloads hs hp h
    | error e =>
      rw [hp] at h
      exact absurd h List.not_mem_nil
  · exact absurd h List.not_mem_nil

/-! ### Lenient loading -/

theorem exists_loadPayloads {source : Text} {ps : List Value}
    (h : ∀ p ∈ ps, Handled (MachineType.ofWire p)) :
    ∃ notices ms, loadPayloads true source ps = ⟨notices, .ok ms⟩ := by
  induction ps with
  | nil => exact ⟨[], [], rfl⟩
  | cons p ps ih =>
    rw [List.forall_mem_cons] at h
    obtain ⟨notices, ms, hl⟩ := ih h.2
    cases hp : MachineType.ofWire p with
    | ok m =>
      rw [loadPayloads_of_accepted hp, hl]
      exact ⟨_, _, rfl⟩
    | error e =>
      cases e with
      | rejected why =>
        rw [loadPayloads_of_rejected hp, if_pos rfl, hl]
        exact ⟨_, _, rfl⟩
      | defect what => exact absurd hp (h.1 what)

/-- What is told of a document of sound structure: that it is not recognised, or which of its
wire forms are left out. -/
def toldOf (source : Text) (doc : Value) : List Notice :=
  if isUnrecognised doc then [.unrecognised source] else (offered doc).filterMap (skipped? source)

/-- What is told of documents, up to the first with a defect in its structure. -/
def told (source : Text) (docs : List Value) : List Notice :=
  (docs.takeWhile fun doc => (structureDefect? doc).isNone).flatMap (toldOf source)

/-- A document of sound structure is loaded when every wire form in it is accepted or
rejected. -/
theorem loadDocument_lenient {source : Text} {doc : Value} (hs : structureDefect? doc = none)
    (h : ∀ p ∈ offered doc, Handled (MachineType.ofWire p)) :
    loadDocument true source doc =
      ⟨toldOf source doc, .ok ((offered doc).filterMap accepted?)⟩ := by
  obtain ⟨notices, ms, hl⟩ : ∃ notices ms, loadPayloads true source (offered doc) =
      ⟨notices, .ok ms⟩ := exists_loadPayloads h
  obtain ⟨hms, hnotices, -⟩ := loadPayloads_lenient_ok hl
  obtain ⟨shape, ps, hd, hp⟩ := exists_payloads hs
  by_cases hu : shape = .unknown
  · subst hu
    have ho : offered doc = [] := by
      rw [offered, hd]
      rfl
    have hunrecognised : isUnrecognised doc = true := by rw [isUnrecognised, hd]
    rw [toldOf, hunrecognised, if_pos rfl, ho, loadDocument, hd]
    rfl
  · have hps : Holds doc ps := ⟨shape, hd, hu, hp⟩
    have hholds : Holds doc (offered doc) := hps.offered_eq ▸ hps
    rw [toldOf, hholds.isUnrecognised_eq, if_neg Bool.false_ne_true, hholds.loadDocument_eq, hl,
      hms, hnotices]

theorem loadDocuments_lenient {source : Text} {docs : List Value}
    (h : ∀ p ∈ docs.flatMap offered, Handled (MachineType.ofWire p)) :
    loadDocuments true source docs = ⟨told source docs,
      match docs.findSome? structureDefect? with
      | none => .ok ((docs.flatMap offered).filterMap accepted?)
      | some what => .error (.defect what)⟩ := by
  induction docs with
  | nil => rfl
  | cons doc docs ih =>
    rw [List.flatMap_cons, List.forall_mem_append] at h
    rw [loadDocuments_cons, List.findSome?_cons, told]
    cases hs : structureDefect? doc with
    | some what =>
      rw [loadDocument_of_structureDefect? hs, Noted.append_of_error _ rfl,
        List.takeWhile_cons_of_neg (by simp [hs])]
      rfl
    | none =>
      rw [loadDocument_lenient hs h.1, ih h.2, Noted.append_of_ok _ rfl,
        List.takeWhile_cons_of_pos (by simp [hs]), List.flatMap_cons, List.flatMap_cons,
        List.filterMap_append, told]
      simp only
      split <;> rfl

/-- **Lenient loading of documents of any structure.**  When every wire form is accepted
or rejected and the console shows what it is told, the first defect in the structure of a document
ends the loading; without one, all that is accepted is loaded.  Whatever has the wrong shape is
passed over: only mappings are read as wire forms.  A console that refuses the marks in what it is
told of the documents in front of the first defect ends the loading too. -/
theorem lenient_outcome (source : Text) (docs : List Value) (c : Console)
    (h : ∀ p ∈ docs.flatMap offered, Handled (MachineType.ofWire p)) :
    (((loadDocuments true source docs).printedOn c).outcome =
        if (told source docs).all c.shows then
          match docs.findSome? structureDefect? with
          | none => .ok ((docs.flatMap offered).filterMap accepted?)
          | some what => .error (.defect what)
        else .error (.defect .unfitMarks)) ∧
      ∀ p ∈ docs.flatMap offered, p.isMapping = true := by
  refine ⟨?_, fun p hp => ?_⟩
  · rw [Noted.outcome_printedOn, loadDocuments_lenient h]
  · obtain ⟨doc, -, hm⟩ := List.mem_flatMap.1 hp
    exact isMapping_of_mem_offered hm

/-- A document of the given kind with the given items. -/
def ofKind (kind : Text) (items : Value) : Value := .object [("kind", .text kind), ("items", items)]

/-- Every part of these documents has the wrong shape but one machine type. -/
def wrongShapes : List Value := [
  .null, .int 1, .list [.text "items", onlyLink], .object [],
  ofKind "compute#machineTypeList" (.int 0), ofKind "compute#machineTypeList" (.text "items"),
  ofKind "compute#machineTypeAggregatedList" (.int 0),
  .object [("items", .object [("zones/a", .list [onlyLink])])]]

/-- A terminal on which no file is met. -/
def bareTerminal : Console := .terminal fun _ _ => []

/-- A machine type whose self link closes a style that is not open. -/
def markedLink : Value := .object [("selfLink", .text "[/x]")]

theorem lenient_outcome_wrongShapes :
    ((loadDocuments true [] wrongShapes).printedOn bareTerminal).outcome =
        .ok [{ machineTypeId := ⟨"p", "z", "m"⟩ }] ∧
      ((loadDocuments true [] (ofKind "compute#machineTypeAggregatedList" (.text "items") ::
        wrongShapes)).printedOn bareTerminal).outcome =
          .error (.defect (.notScopes (.text "items"))) ∧
      ((loadDocuments true [] [markedLink]).printedOn bareTerminal).outcome =
        .error (.defect .unfitMarks) := by
  have hlink : MachineType.ofWire onlyLink = .ok { machineTypeId := ⟨"p", "z", "m"⟩ } := rfl
  have hone : ∀ p ∈ [onlyLink], Handled (MachineType.ofWire p) := by
    rintro p hp
    rw [List.mem_singleton.1 hp, hlink]
    exact handled_ok _
  have hmarked : ∀ p ∈ [markedLink], Handled (MachineType.ofWire p) := by
    have hwire : MachineType.ofWire markedLink =
        .error (.rejected (.malformedUrl (.text "[/x]") .machineType)) := rfl
    rintro p hp
    rw [List.mem_singleton.1 hp, hwire]
    exact nofun
  have hshown : (told [] wrongShapes).all bareTerminal.shows = true := by decide +kernel
  have hrefused : (told [] [markedLink]).all bareTerminal.shows = false := by decide +kernel
  refine ⟨?_, ?_, ?_⟩
  · rw [(lenient_outcome [] wrongShapes bareTerminal hone).1, if_pos hshown]
    rfl
  · rw [(lenient_outcome [] (ofKind "compute#machineTypeAggregatedList" (.text "items") ::
      wrongShapes) bareTerminal hone).1]
    rfl
  · rw [(lenient_outcome [] [markedLink] bareTerminal hmarked).1, hrefused]
    rfl

/-- **A list in the place of scopes ends lenient loading**, though the machine type in it
is accepted and the document offers nothing else. -/
theorem loadDocuments_list_for_scopes :
    offered (ofKind "compute#machineTypeAggregatedList" (.list [onlyLink])) = [] ∧
      MachineType.ofWire onlyLink = .ok { machineTypeId := ⟨"p", "z", "m"⟩ } ∧
      ∀ c, (loadDocuments true []
          [ofKind "compute#machineTypeAggregatedList" (.list [onlyLink])]).printedOn c =
        ⟨[], .error (.defect (.notScopes (.list [onlyLink])))⟩ :=
  ⟨rfl, rfl, fun _ => rfl⟩

end Loading
end MachineCatalog
