/-
# JSON catalogs are loaded again

A JSON catalog of machine types that were loaded from JSON documents is itself a JSON
document, a list response that holds their wire forms.  So its text is read, and loading
what is read gives the machine types again: all of them, in order, each as it was, and
without a notice (`Report.Json.loadDocuments_render`).

Three facts meet there.  What a document offers is part of it (`Loading.fitsIn_offered`), so
the wire forms are documents (`Loading.Restorable`); a list response holds its members
(`Loading.holds_list`); and every document reads back from its text (`Json.read_render`).
-/

import MachineCatalog.Proofs.Calendar.Ordinal
import MachineCatalog.Proofs.Json.RoundTrip
import MachineCatalog.Proofs.Loading.Shapes
import MachineCatalog.Proofs.WireForm.Documents
import MachineCatalog.Proofs.WireForm.Equality
import MachineCatalog.Report.Json

namespace MachineCatalog

open Value

namespace Loading

/-! ### What documents offer -/

section FitsIn

variable {depth : Nat}

theorem fitsIn_objects {v : Value} (h : Json.FitsIn depth v) :
    ∀ p ∈ objects v, Json.FitsIn depth p := by
  rintro p hp
  have hm := List.mem_of_mem_filter hp
  cases hi : v.items? with
  | none =>
    rw [hi] at hm
    exact absurd hm List.not_mem_nil
  | some items =>
    rw [hi] at hm
    obtain ⟨inner, rfl, -, hitems⟩ := h.exists_items hi
    exact (hitems p hm).mono (Nat.le_succ inner)

theorem fitsIn_scopeObjects {scope : Value} (h : Json.FitsIn depth scope) :
    ∀ p ∈ scopeObjects scope, Json.FitsIn depth p := by
  rintro p hp
  unfold scopeObjects at hp
  split at hp
  · rename_i fields hf
    obtain ⟨inner, rfl, hfields⟩ := h.exists_entries hf
    exact (fitsIn_objects (Json.fitsIn_get hfields _) p hp).mono (Nat.le_succ inner)
  · exact absurd hp List.not_mem_nil

theorem fitsIn_scopedObjects {items : Value} {ps : List Value} (h : Json.FitsIn depth items)
    (hp : scopedObjects items = .ok ps) : ∀ p ∈ ps, Json.FitsIn depth p := by
  rw [scopedObjects] at hp
  split_ifs at hp
  · obtain rfl := Except.ok.inj hp
    exact List.forall_mem_nil _
  · split at hp
    · rename_i scopes hs
      obtain rfl := Except.ok.inj hp
      obtain ⟨inner, rfl, hscopes⟩ := h.exists_entries hs
      rintro p hm
      obtain ⟨scope, hscope, hm⟩ := List.mem_flatMap.1 hm
      exact (fitsIn_scopeObjects (hscopes scope hscope) p hm).mono (Nat.le_succ inner)
    · cases hp

theorem fitsIn_payloads {shape : Shape} {doc : Value} {ps : List Value}
    (h : Json.FitsIn depth doc) (hp : payloads shape doc = .ok ps) :
    ∀ p ∈ ps, Json.FitsIn depth p := by
  have hitems : Json.FitsIn depth (Value.get (doc.entries?.getD []) "items") := by
    cases hf : doc.entries? with
    | none => exact Json.fitsIn_null depth
    | some fields =>
      obtain ⟨inner, rfl, hfields⟩ := h.exists_entries hf
      exact (Json.fitsIn_get hfields "items").mono (Nat.le_succ inner)
  cases shape with
  | machineType =>
    obtain rfl := Except.ok.inj hp
    exact List.forall_mem_singleton.2 h
  | array =>
    obtain rfl := Except.ok.inj hp
    exact fitsIn_objects h
  | list =>
    obtain rfl := Except.ok.inj hp
    exact fitsIn_objects hitems
  | aggregatedList => exact fitsIn_scopedObjects hitems hp
  | unknown =>
    obtain rfl := Except.ok.inj hp
    exact List.forall_mem_nil _

/-- **What a document offers is part of it.** -/
theorem fitsIn_offered {doc : Value} (h : Json.FitsIn depth doc) :
    ∀ p ∈ offered doc, Json.FitsIn depth p := by
  rintro p hp
  unfold offered at hp
  split at hp
  · rename_i shape _
    cases hps : payloads shape doc with
    | ok ps =>
      rw [hps] at hp
      exact fitsIn_payloads h hps p hp
    | error e =>
      rw [hps] at hp
      exact absurd hp List.not_mem_nil
  · exact absurd hp List.not_mem_nil

end FitsIn

/-! ### What was loaded -/

/-- The machine type has a wire form that is a document, nested at most that deep, and that
reads back as it was. -/
def Restorable (depth : Nat) (m : MachineType) : Prop :=
  ∃ w, m.toWire = .ok w ∧ MachineType.ofWire w = .ok m ∧ Json.FitsIn depth w

/-- **What was loaded from documents can be restored**, when its times are in the years 1 to
9999. -/
theorem restorable_of_mem {skip : Bool} {source : Text} {docs : List Value}
    {notices : List Notice} {ms : List MachineType} {m : MachineType} {depth : Nat}
    (h : loadDocuments skip source docs = ⟨notices, .ok ms⟩)
    (hdocs : ∀ doc ∈ docs, Json.FitsIn depth doc) (hm : m ∈ ms)
    (htimes : ∀ n, .int n ∈ m.times → Timestamp.InRange n) : Restorable depth m := by
  obtain ⟨doc, hdoc, p, hp, hofWire⟩ := exists_offered_of_mem h hm
  obtain ⟨w, hw, hback⟩ := MachineType.exists_readBack hofWire htimes
  obtain ⟨inner, rfl, hfits⟩ :=
    MachineType.exists_fitsIn_of_ofWire (fitsIn_offered (hdocs doc hdoc) p hp) hofWire
  exact ⟨w, hw, hback, hfits.toWire (MachineType.isRead_of_ofWire hofWire) hw⟩

/-- Wire forms that are accepted are loaded without notices. -/
theorem loadPayloads_of_forall₂ {ws : List Value} {ms : List MachineType}
    (h : List.Forall₂ (fun w m => MachineType.ofWire w = .ok m) ws ms) (skip : Bool)
    (source : Text) : loadPayloads skip source ws = ⟨[], .ok ms⟩ := by
  induction h with
  | nil => rfl
  | cons hw _ ih =>
    rw [loadPayloads_of_accepted hw, ih]
    rfl

theorem filter_isMapping_eq_self {ws : List Value} {ms : List MachineType}
    (h : List.Forall₂ (fun w m => MachineType.ofWire w = .ok m) ws ms) :
    ws.filter Value.isMapping = ws := by
  induction h with
  | nil => rfl
  | @cons w m ws ms hw _ ih =>
    have hmapping : w.isMapping = true := by
      obtain ⟨fields, hf, -⟩ := MachineType.ofWire_eq_ok_iff.1 hw
      rw [Value.isMapping, hf]
      rfl
    rw [List.filter_cons_of_pos hmapping, ih]

end Loading

namespace Report
namespace Json

/-! ### The catalog as a document -/

theorem exists_wireForms {depth : Nat} {ms : List MachineType}
    (h : ∀ m ∈ ms, Loading.Restorable depth m) :
    ∃ ws, wireForms ms = .ok ws ∧
      List.Forall₂ (fun w m => MachineType.ofWire w = .ok m) ws ms ∧
      ∀ w ∈ ws, Json.FitsIn depth w := by
  induction ms with
  | nil => exact ⟨[], rfl, .nil, List.forall_mem_nil _⟩
  | cons m ms ih =>
    rw [List.forall_mem_cons] at h
    obtain ⟨⟨w, hw, hback, hfits⟩, hms⟩ := h
    obtain ⟨ws, hws, hbacks, hall⟩ := ih hms
    refine ⟨w :: ws, ?_, .cons hback hbacks, List.forall_mem_cons.2 ⟨hfits, hall⟩⟩
    rw [wireForms, hw, hws]
    rfl

theorem hasNoHalf_clockSeconds (now : Moment) : Json.HasNoHalf (clockSeconds now) :=
  ((now.date.hasNoHalf_text.append (Json.hasNoHalf_ofString "T")).append
    now.time.hasNoHalf_text).append (Json.hasNoHalf_ofString "Z")

/-- The keys of the note. -/
def noteKeys : List Text := ["generated", "source", "tool", "version"]

theorem fitsIn_note (now : Moment) {source : Text} (h : Json.IsPaired source) :
    Json.FitsIn 1 (note now source) := by
  have hkeys : noteKeys.Nodup ∧ ∀ k ∈ noteKeys, Json.IsPaired k := by decide
  refine Json.fitsIn_object hkeys.1 hkeys.2 ?_
  simp only [List.forall_mem_cons]
  exact ⟨Json.fitsIn_text (hasNoHalf_clockSeconds now).isPaired 0, Json.fitsIn_text h 0,
    Json.fitsIn_text (Json.isPaired_ofString _) 0, Json.fitsIn_text (Json.isPaired_ofString _) 0,
    List.forall_mem_nil _⟩

/-- The catalog with the given items. -/
def envelope (now : Moment) (source : Text) (items : List Value) : Value :=
  .object [
    ("meta", note now source),
    ("kind", .text "compute#machineTypeList"),
    ("items", .list items)]

/-- The keys of the catalog. -/
def envelopeKeys : List Text := ["meta", "kind", "items"]

theorem fitsIn_envelope (now : Moment) {source : Text} (h : Json.IsPaired source) {depth : Nat}
    {items : List Value} (hitems : ∀ w ∈ items, Json.FitsIn depth w) :
    Json.FitsIn (depth + 2) (envelope now source items) := by
  have hkeys : envelopeKeys.Nodup ∧ ∀ k ∈ envelopeKeys, Json.IsPaired k := by decide
  refine Json.fitsIn_object hkeys.1 hkeys.2 ?_
  simp only [List.forall_mem_cons]
  exact ⟨(fitsIn_note now h).mono (Nat.le_add_left 1 depth),
    Json.fitsIn_text (Json.isPaired_ofString _) _, Json.fitsIn_list hitems, List.forall_mem_nil _⟩

theorem holds_envelope (now : Moment) (source : Text) {items : List Value}
    (h : items.filter Value.isMapping = items) :
    Loading.Holds (envelope now source items) items := by
  have hholds : Loading.Holds (envelope now source items) (items.filter Value.isMapping) :=
    Loading.holds_list rfl rfl rfl
  rwa [h] at hholds

/-- A source label is written like its joined form. -/
theorem render_envelope_joined (now : Moment) (source : Text) (items : List Value) :
    MachineCatalog.Json.render (envelope now (Json.joined source) items) =
      MachineCatalog.Json.render (envelope now source items) := by
  have hnote (depth : Nat) : Json.write [] depth (note now (Json.joined source)) =
      Json.write [] depth (note now source) := by
    simp only [note, Value.object, List.map_cons, Json.write, Json.writeEntries,
      Json.quoted_joined]
  simp only [MachineCatalog.Json.render, envelope, Value.object, List.map_cons, Json.write,
    Json.writeEntries, hnote]

/-- **A JSON catalog is loaded again.**  Of machine types that were loaded from documents,
with times in the years 1 to 9999, the catalog is written, whatever the time and the source
label.  Its text is read unless it is nested too deep, and loading what is read gives the
machine types as they were, in order and without notices.  Each equals itself.  The catalog
is nested at most two levels deeper than the documents. -/
theorem loadDocuments_render {skip : Bool} {place : Text} {docs : List Value}
    {notices : List Notice} {ms : List MachineType} (hdocs : ∀ doc ∈ docs, Json.IsDocument doc)
    (hload : Loading.loadDocuments skip place docs = ⟨notices, .ok ms⟩)
    (htimes : ∀ m ∈ ms, ∀ n, .int n ∈ m.times → Timestamp.InRange n) (now : Moment)
    (source : Text) :
    ∃ text report, render now source ms = .ok text ∧
      document now (Json.joined source) ms = .ok report ∧
      Json.read text.chars = Json.within (Json.nesting report) Json.nestingLimit report ∧
      (∀ skip' place', Loading.loadDocuments skip' place' [report] = ⟨[], .ok ms⟩) ∧
      (∀ m ∈ ms, m.equals m = .ok true) ∧
      ∀ depth, (∀ doc ∈ docs, Json.nesting doc ≤ depth) → Json.nesting report ≤ depth + 2 := by
  have hfits : ∀ doc ∈ docs, Json.FitsIn (Json.nestingOfItems docs) doc := fun doc hdoc =>
    ⟨hdocs doc hdoc, Json.nestingOfItems_le_iff.1 le_rfl doc hdoc⟩
  have hrestorable : ∀ m ∈ ms, Loading.Restorable (Json.nestingOfItems docs) m := fun m hm =>
    Loading.restorable_of_mem hload hfits hm (htimes m hm)
  obtain ⟨ws, hws, hback, hall⟩ := exists_wireForms hrestorable
  -- the label is written like its joined form, and only that reads back
  have hreport := fitsIn_envelope now (Json.isPaired_joined source) hall
  obtain ⟨text, htext, hread⟩ := Json.read_render hreport.document
  have hdocument (label : Text) : document now label ms = .ok (envelope now label ws) := by
    rw [document, hws]
    rfl
  refine ⟨text, _, ?_, hdocument _, hread, fun skip' place' => ?_, fun m hm => ?_,
    fun depth hdepth => ?_⟩
  · rw [render, hdocument, ok_bind, ← render_envelope_joined, htext]
  · have hholds := holds_envelope now (Json.joined source) (Loading.filter_isMapping_eq_self hback)
    rw [hholds.loadDocuments_eq, Loading.loadPayloads_of_forall₂ hback]
  · obtain ⟨w, hw, -⟩ := hrestorable m hm
    exact MachineType.equals_self ⟨w, hw⟩
  · have hle := Json.nestingOfItems_le_iff.2 hdepth
    exact hreport.nesting_le.trans (Nat.add_le_add_right hle 2)

/-- A wire form that is not written as it stands: its id has a sign and zeros, and its disk size
is a text with an underscore.  It also holds half of a pair and minus zero. -/
def oddPayload : Value := .object [
  ("selfLink", .text "projects/p/zones/z/machineTypes/m"),
  ("id", .text "+007"),
  ("creationTimestamp", .text "2000-01-01T00:00:00Z"),
  ("description", .text [CodePoint.ofNat 0xD800]),
  ("guestCpus", .float (.signed true ⟨0, Nat.succ_pos _⟩)),
  ("maximumPersistentDisksSizeGb", .text "1_0")]

/-- The machine type that is read from it. -/
def oddMachineType : MachineType where
  machineTypeId := ⟨"p", "z", "m"⟩
  id := .text "7"
  creationTimestamp := .int 946684800000
  description := .text [CodePoint.ofNat 0xD800]
  cpus := .float (.signed true ⟨0, Nat.succ_pos _⟩)
  maximumPersistentDisksSizeGb := .int 10

theorem fitsIn_oddPayload : Json.FitsIn 1 oddPayload := by
  let keys : List Text := ["selfLink", "id", "creationTimestamp", "description", "guestCpus",
    "maximumPersistentDisksSizeGb"]
  have hkeys : keys.Nodup ∧ ∀ k ∈ keys, Json.IsPaired k := by decide
  have hcpus : Json.FitsIn 0 (.float (.signed true ⟨0, Nat.succ_pos _⟩)) :=
    ⟨.float true (Nat.mul_pos (by decide) (by decide)), le_rfl⟩
  refine Json.fitsIn_object hkeys.1 hkeys.2 ?_
  simp only [List.forall_mem_cons]
  exact ⟨Json.fitsIn_text (by decide) 0, Json.fitsIn_text (by decide) 0,
    Json.fitsIn_text (by decide) 0, Json.fitsIn_text (by decide) 0, hcpus,
    Json.fitsIn_text (by decide) 0, List.forall_mem_nil _⟩

theorem ofWire_oddPayload : MachineType.ofWire oddPayload = .ok oddMachineType := by
  let seven : Numeral := ⟨.plus, [0, 0, 7], by decide⟩
  have hshort : seven.IsShort := by decide
  have hid : MachineType.idOf (.text seven.text) =
      .ok (.text (Text.signedDecimal seven.value)) := by
    rw [MachineType.idOf, MachineType.optional, NumericId.decode_eq_ok_iff.2
      ⟨_, NumericId.encode_text hshort, hshort.isLongInteger_value, rfl⟩]
    rfl
  have ht : seven.text = "+007" := by decide
  have hv : Text.signedDecimal seven.value = "7" := by decide
  rw [ht, hv] at hid
  exact MachineType.ofWire_eq_ok_iff.2 ⟨_, entries?_object _,
    { identity := rfl, id := hid, creationTimestamp := rfl, description := rfl, cpus := rfl
      memoryMb := rfl, scratchDisks := rfl, maximumPersistentDisks := rfl
      maximumPersistentDisksSizeGb := rfl, deprecationStatus := rfl }⟩

/-- New Year's midnight of the year 2000. -/
def newYear : Moment := ⟨.newYear2000, ⟨0, 0, 0, 0⟩, none⟩

/-- The catalog of a list with that machine type and one that is rejected. -/
theorem loadDocuments_render_oddMachineType :
    Json.IsDocument (.list [oddPayload, .object []]) ∧
      (Loading.loadDocuments true [] [.list [oddPayload, .object []]]).outcome =
        .ok [oddMachineType] ∧
      ∃ text report, render newYear "a/b" [oddMachineType] = .ok text ∧
        Json.read text.chars = .ok report ∧
        Loading.loadDocuments false [] [report] = ⟨[], .ok [oddMachineType]⟩ := by
  have hdoc : Json.IsDocument (.list [oddPayload, .object []]) := by
    refine .list ?_
    simp only [List.forall_mem_cons]
    exact ⟨fitsIn_oddPayload.document, .object .nil nofun nofun, List.forall_mem_nil _⟩
  have hload : Loading.loadDocuments true [] [.list [oddPayload, .object []]] =
      ⟨[.skipped [] (.missingField "selfLink" "MachineType wire form")],
        .ok [oddMachineType]⟩ := by
    rw [(Loading.holds_array _).loadDocuments_eq]
    show Loading.loadPayloads true [] [oddPayload, .object []] = _
    rw [Loading.loadPayloads_of_accepted ofWire_oddPayload]
    rfl
  have hdocs : ∀ doc ∈ [Value.list [oddPayload, .object []]], Json.IsDocument doc :=
    List.forall_mem_singleton.2 hdoc
  have htimes : ∀ m ∈ [oddMachineType], ∀ n, .int n ∈ m.times → Timestamp.InRange n := by
    rintro m hm n hn
    obtain rfl := List.mem_singleton.1 hm
    obtain rfl : n = 946684800000 := Value.int.inj (List.mem_singleton.1 hn)
    decide
  obtain ⟨text, report, htext, -, hread, hback, -, hdepth⟩ :=
    loadDocuments_render hdocs hload htimes newYear "a/b"
  have hnesting : Json.nesting report ≤ Json.nestingLimit :=
    (hdepth 2 (List.forall_mem_singleton.2 (Nat.le_refl 2))).trans (by decide)
  rw [Json.within, if_pos hnesting] at hread
  exact ⟨hdoc, congrArg Noted.outcome hload, text, report, htext, hread, hback false []⟩

end Json
end Report
end MachineCatalog
