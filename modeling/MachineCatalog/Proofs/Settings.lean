/-
# What loading settings comes to

Settings come from the mapping in their file, and where there is no such mapping they are the
usual ones (`Settings.inFields_nil`).  What is wrong with a file is handled when the file cannot
be opened, or when it breaks the rules of YAML; everything else that reading it may meet, and a
format that cannot be shown, ends the run (`Settings.Escapes`).  What is handled is told
(`Settings.Tells`) in the words of the user, and a console may refuse the marks in these.  So
settings are loaded exactly if nothing of either sort happens (`Settings.load_outcome`).  No part
of a file is taken for the whole: in a file that is not UTF-8 to its end there is no mapping
(`Settings.HoldsMapping.isStream`).
-/

import MachineCatalog.Proofs.Failure
import MachineCatalog.Proofs.FileSystem
import MachineCatalog.Proofs.Markup
import MachineCatalog.Proofs.Notice
import MachineCatalog.Proofs.Value.Fields
import MachineCatalog.Proofs.Yaml.Reading
import MachineCatalog.Settings

namespace MachineCatalog
namespace Settings

open Yaml (IsStream Problem isStream_of_readSingle readSingle)

/-- The settings file of a run: the one that was asked for, or the default one. -/
def fileOf (path : Option Text) : Text := (path.filter fun p => !p.isEmpty).getD defaultFile

/-- What stands for the format in the fields of a mapping. -/
def named (fields : List (Value × Value)) : Value :=
  (Value.get? fields "format").getD (.text ReportFormat.table.label)

/-- The settings in the fields of a mapping.  A format that does not exist stands for a table. -/
def inFields (fields : List (Value × Value)) : Settings where
  project := Value.get fields "project"
  format := (ReportFormat.ofLabel? (Text.lowercase (named fields).toText)).getD .table
  zone := Value.get fields "zone"

/-- **Without fields the settings are the usual ones.** -/
theorem inFields_nil : inFields [] = {} := by
  have hformat : ReportFormat.ofLabel? (Text.lowercase (named []).toText) = some .table := by
    decide
  rw [inFields, hformat]
  rfl

/-- Reading a file came to something that loading settings does not handle, and this defect comes
of it. -/
inductive Escapes : Except Problem Value → Defect → Prop where
  /-- The reader came to octets that are not UTF-8. -/
  | undecodable : Escapes (.error .undecodable) .undecodable
  /-- Collections are nested too deeply. -/
  | tooDeep : Escapes (.error .tooDeep) .tooDeep
  /-- A scalar is not of the kind that it looks like or is tagged as. -/
  | unfitScalar {p : Problem} (h : p ∉ [.malformed, .undecodable, .tooDeep]) :
    Escapes (.error p) (.unfitScalar p)
  /-- The format holds an integer that is too long to be written. -/
  | longInteger {v : Value} {fields : List (Value × Value)} (h : v.entries? = some fields)
    (hlong : (named fields).holdsLongInteger = true) : Escapes (.ok v) .longInteger

/-- The fields of the mapping that was read; there are none without a mapping. -/
def fieldsIn : Except Problem Value → List (Value × Value)
  | .ok v => v.entries?.getD []
  | .error _ => []

/-- What was read of a file has this told. -/
inductive TellsOf (file : Text) (content : ByteArray) : Except Problem Value → Notice → Prop where
  /-- The file breaks the rules of YAML. -/
  | malformed : TellsOf file content (.error .malformed) (.unreadable file (.notSettings content))
  /-- It holds something else than a mapping. -/
  | notMapping {v : Value} (h : v.entries? = none) (hcounts : v.counts = true) :
    TellsOf file content (.ok v) (.settingsNotMapping file)
  /-- The mapping names a format that does not exist. -/
  | unknownFormat {v : Value} {fields : List (Value × Value)} (h : v.entries? = some fields)
    (hshort : (named fields).holdsLongInteger = false)
    (hunknown : ReportFormat.ofLabel? (Text.lowercase (named fields).toText) = none) :
    TellsOf file content (.ok v) (.unknownFormat (Text.lowercase (named fields).toText) file)

section OfRead

variable {file : Text} {content : ByteArray} {fields : List (Value × Value)}

theorem ofFields_of_long (hlong : (named fields).holdsLongInteger = true) :
    ofFields file fields = ⟨[], .error (.defect .longInteger)⟩ := by
  unfold ofFields
  rw [show (Value.get? fields "format").getD (.text ReportFormat.table.label) = named fields
    from rfl]
  simp only [hlong]
  rfl

theorem ofFields_of_short (hshort : (named fields).holdsLongInteger = false) :
    ofFields file fields =
      ⟨if ReportFormat.ofLabel? (Text.lowercase (named fields).toText) = none then
        [.unknownFormat (Text.lowercase (named fields).toText) file] else [],
        .ok (inFields fields)⟩ := by
  unfold ofFields inFields
  rw [show (Value.get? fields "format").getD (.text ReportFormat.table.label) = named fields
    from rfl]
  simp only [hshort]
  cases ReportFormat.ofLabel? (Text.lowercase (named fields).toText) <;> rfl

/-- Without fields nothing is told. -/
theorem ofFields_nil (file : Text) : ofFields file [] = ⟨[], .ok {}⟩ := by
  have hshort : (named []).holdsLongInteger = false := by decide
  have hformat : ReportFormat.ofLabel? (Text.lowercase (named []).toText) = some .table := by
    decide
  rw [ofFields_of_short hshort, hformat, inFields_nil]
  rfl

/-- The settings that come of what was read of a file. -/
def ofRead (file : Text) (content : ByteArray) : Except Problem Value → Noted Settings
  | .ok v => ofValue file v
  | .error .malformed => do
    Noted.tell (.unreadable file (.notSettings content))
    return {}
  | .error .undecodable => Noted.lift (abort .undecodable)
  | .error .tooDeep => Noted.lift (abort .tooDeep)
  | .error p => Noted.lift (abort (.unfitScalar p))

theorem ofContent_eq (file : Text) (content : ByteArray) :
    ofContent file content = ofRead file content (readSingle (.ofFile content)) := by
  unfold ofContent
  generalize readSingle (.ofFile content) = read
  rfl

theorem ofRead_ok_of_fields {v : Value} (h : v.entries? = some fields) :
    ofRead file content (.ok v) = ofFields file fields := by
  show ofValue file v = _
  rw [ofValue, h]

theorem ofRead_ok_of_no_fields {v : Value} (h : v.entries? = none) :
    ofRead file content (.ok v) =
      ⟨if v.counts then [.settingsNotMapping file] else [], .ok {}⟩ := by
  show ofValue file v = _
  simp only [ofValue, h]
  split_ifs
  · rfl
  · exact ofFields_nil file

/-- **What loading does not handle ends it**, and nothing is told. -/
theorem Escapes.ofRead_eq {read : Except Problem Value} {what : Defect} (h : Escapes read what)
    (file : Text) (content : ByteArray) :
    ofRead file content read = ⟨[], .error (.defect what)⟩ := by
  cases h with
  | undecodable => rfl
  | tooDeep => rfl
  | @unfitScalar p hp =>
    cases p with
    | malformed => exact absurd hp (by decide)
    | undecodable => exact absurd hp (by decide)
    | tooDeep => exact absurd hp (by decide)
    | _ => rfl
  | longInteger hv hlong => rw [ofRead_ok_of_fields hv, ofFields_of_long hlong]

/-- Otherwise the settings are those of the mapping. -/
theorem outcome_ofRead {read : Except Problem Value} (h : ∀ what, ¬Escapes read what)
    (file : Text) (content : ByteArray) :
    (ofRead file content read).outcome = .ok (inFields (fieldsIn read)) := by
  cases read with
  | error p =>
    rw [fieldsIn, inFields_nil]
    cases p with
    | malformed => rfl
    | undecodable => exact absurd .undecodable (h _)
    | tooDeep => exact absurd .tooDeep (h _)
    | _ => exact absurd (.unfitScalar (by decide)) (h _)
  | ok v =>
    rw [fieldsIn]
    cases hv : v.entries? with
    | none =>
      rw [ofRead_ok_of_no_fields hv, Option.getD_none, inFields_nil]
    | some fields =>
      cases hlong : (named fields).holdsLongInteger with
      | true => exact absurd (.longInteger hv hlong) (h _)
      | false => rw [ofRead_ok_of_fields hv, ofFields_of_short hlong, Option.getD_some]

/-- What is told of a file is told of what was read of it. -/
theorem mem_notices_ofRead {read : Except Problem Value} {n : Notice} :
    n ∈ (ofRead file content read).notices ↔ TellsOf file content read n := by
  constructor
  · intro h
    cases read with
    | error p =>
      cases p with
      | malformed =>
        obtain rfl := List.mem_singleton.1 h
        exact .malformed
      | _ => exact absurd h List.not_mem_nil
    | ok v =>
      cases hv : v.entries? with
      | none =>
        rw [ofRead_ok_of_no_fields hv] at h
        dsimp only at h
        split_ifs at h with hcounts
        · obtain rfl := List.mem_singleton.1 h
          exact .notMapping hv hcounts
        · exact absurd h List.not_mem_nil
      | some fields =>
        cases hlong : (named fields).holdsLongInteger with
        | true =>
          rw [ofRead_ok_of_fields hv, ofFields_of_long hlong] at h
          exact absurd h List.not_mem_nil
        | false =>
          rw [ofRead_ok_of_fields hv, ofFields_of_short hlong] at h
          dsimp only at h
          split_ifs at h with hunknown
          · obtain rfl := List.mem_singleton.1 h
            exact .unknownFormat hv hlong hunknown
          · exact absurd h List.not_mem_nil
  · intro h
    cases h with
    | malformed => exact List.mem_singleton_self _
    | notMapping hv hcounts =>
      rw [ofRead_ok_of_no_fields hv, hcounts]
      exact List.mem_singleton_self _
    | unknownFormat hv hshort hunknown =>
      rw [ofRead_ok_of_fields hv, ofFields_of_short hshort, hunknown]
      exact List.mem_singleton_self _

end OfRead

/-- What loading settings does not handle is in the file, and this defect comes of it. -/
def EscapesAt (fs : FileSystem) (file : Text) (what : Defect) : Prop :=
  ∃ content, fs.read? file = some content ∧ Escapes (readSingle (.ofFile content)) what

/-- Loading settings has this told. -/
inductive Tells (fs : FileSystem) (path : Option Text) : Notice → Prop where
  /-- A file was asked for that does not exist. -/
  | missing (h : fs.contains (fileOf path) = false)
    (hgiven : (path.filter fun p => !p.isEmpty).isSome = true) :
    Tells fs path (.missingSettings (fileOf path))
  /-- The file exists, and cannot be opened. -/
  | unopened (h : fs.contains (fileOf path) = true) (hread : fs.read? (fileOf path) = none) :
    Tells fs path (.unreadable (fileOf path) .unopened)
  /-- The file was read. -/
  | reading {content : ByteArray} {n : Notice} (hread : fs.read? (fileOf path) = some content)
    (h : TellsOf (fileOf path) content (readSingle (.ofFile content)) n) : Tells fs path n

/-- The file can be opened and read, and holds a mapping with these fields. -/
def HoldsMapping (fs : FileSystem) (file : Text) (fields : List (Value × Value)) : Prop :=
  ∃ content v, fs.read? file = some content ∧ readSingle (.ofFile content) = .ok v ∧
    v.entries? = some fields

theorem HoldsMapping.isStream {fs : FileSystem} {file : Text} {fields : List (Value × Value)}
    {content : ByteArray} (h : HoldsMapping fs file fields) (hfile : fs.read? file = some content) :
    IsStream content := by
  obtain ⟨content', v, hfile', hread, -⟩ := h
  obtain rfl : content' = content := Option.some.inj (hfile'.symm.trans hfile)
  exact isStream_of_readSingle hread

/-- The fields of the mapping in the file at a path; there are none without a mapping. -/
def fieldsAt (fs : FileSystem) (file : Text) : List (Value × Value) :=
  match fs.read? file with
  | some content => fieldsIn (readSingle (.ofFile content))
  | none => []

theorem fieldsAt_of_holdsMapping {fs : FileSystem} {file : Text} {fields : List (Value × Value)}
    (h : HoldsMapping fs file fields) : fieldsAt fs file = fields := by
  obtain ⟨content, v, hfile, hread, hv⟩ := h
  simp only [fieldsAt, hfile]
  rw [hread, fieldsIn, hv]
  rfl

theorem fieldsAt_eq_nil {fs : FileSystem} {file : Text}
    (h : ∀ fields, ¬HoldsMapping fs file fields) : fieldsAt fs file = [] := by
  unfold fieldsAt
  split
  · rename_i content hfile
    cases hread : readSingle (.ofFile content) with
    | error p => rfl
    | ok v =>
      rw [fieldsIn]
      cases hv : v.entries? with
      | none => rfl
      | some fields => exact absurd ⟨content, v, hfile, hread, hv⟩ (h fields)
  · rfl

section Load

variable {fs : FileSystem} {path : Option Text}

theorem load_of_read {content : ByteArray} (h : fs.read? (fileOf path) = some content) :
    load fs path = ofRead (fileOf path) content (readSingle (.ofFile content)) := by
  have hthere : fs.contains (fileOf path) = true := FileSystem.contains_of_read? h
  rw [← ofContent_eq, load]
  rw [fileOf] at h hthere
  simp only [hthere, if_true, h]
  rfl

theorem load_of_unopened (h : fs.contains (fileOf path) = true)
    (hread : fs.read? (fileOf path) = none) :
    load fs path = ⟨[.unreadable (fileOf path) .unopened], .ok {}⟩ := by
  rw [load]
  rw [fileOf] at h hread
  simp only [h, if_true, hread]
  rfl

theorem load_of_missing (h : fs.contains (fileOf path) = false) :
    load fs path =
      ⟨if (path.filter fun p => !p.isEmpty).isSome then [.missingSettings (fileOf path)] else [],
        .ok {}⟩ := by
  rw [load]
  rw [fileOf] at h
  simp only [h, Bool.false_eq_true, if_false]
  split_ifs <;> rfl

/-- **Loading fails as reading the file does**, and nothing is told then. -/
theorem EscapesAt.load_eq {what : Defect} (h : EscapesAt fs (fileOf path) what) :
    load fs path = ⟨[], .error (.defect what)⟩ := by
  obtain ⟨content, hread, hescapes⟩ := h
  rw [load_of_read hread, hescapes.ofRead_eq]

/-- **Otherwise the settings are those of the mapping in the file.** -/
theorem outcome_load (h : ∀ what, ¬EscapesAt fs (fileOf path) what) :
    (load fs path).outcome = .ok (inFields (fieldsAt fs (fileOf path))) := by
  cases hread : fs.read? (fileOf path) with
  | some content =>
    have hfields : fieldsAt fs (fileOf path) = fieldsIn (readSingle (.ofFile content)) := by
      simp only [fieldsAt, hread]
    rw [load_of_read hread, hfields]
    exact outcome_ofRead (fun what hwhat => h what ⟨content, hread, hwhat⟩) _ _
  | none =>
    have hfields : fieldsAt fs (fileOf path) = [] := by simp only [fieldsAt, hread]
    rw [hfields, inFields_nil]
    cases hthere : fs.contains (fileOf path) with
    | true => rw [load_of_unopened hthere hread]
    | false => rw [load_of_missing hthere]

/-- What is told is what loading has told. -/
theorem mem_notices_load {n : Notice} : n ∈ (load fs path).notices ↔ Tells fs path n := by
  constructor
  · intro h
    cases hread : fs.read? (fileOf path) with
    | some content =>
      rw [load_of_read hread] at h
      exact .reading hread (mem_notices_ofRead.1 h)
    | none =>
      cases hthere : fs.contains (fileOf path) with
      | true =>
        rw [load_of_unopened hthere hread] at h
        obtain rfl := List.mem_singleton.1 h
        exact .unopened hthere hread
      | false =>
        rw [load_of_missing hthere] at h
        dsimp only at h
        split_ifs at h with hgiven
        · obtain rfl := List.mem_singleton.1 h
          exact .missing hthere hgiven
        · exact absurd h List.not_mem_nil
  · intro h
    cases h with
    | missing hthere hgiven =>
      rw [load_of_missing hthere, if_pos hgiven]
      exact List.mem_singleton_self _
    | unopened hthere hread =>
      rw [load_of_unopened hthere hread]
      exact List.mem_singleton_self _
    | reading hread h =>
      rw [load_of_read hread]
      exact mem_notices_ofRead.2 h

theorem EscapesAt.not_tells {what : Defect} (h : EscapesAt fs (fileOf path) what) (n : Notice) :
    ¬Tells fs path n := by
  intro hn
  rw [← mem_notices_load, h.load_eq] at hn
  exact absurd hn List.not_mem_nil

variable {c : Console}

theorem all_shows_iff :
    (load fs path).notices.all c.shows = true ↔ ∀ n, Tells fs path n → c.shows n = true := by
  rw [List.all_eq_true]
  exact forall_congr' fun n => by rw [mem_notices_load]

theorem outcome_printedOn_load_eq_ok_iff {settings : Settings} :
    ((load fs path).printedOn c).outcome = .ok settings ↔
      (∀ what, ¬EscapesAt fs (fileOf path) what) ∧ (∀ n, Tells fs path n → c.shows n = true) ∧
        settings = inFields (fieldsAt fs (fileOf path)) := by
  rw [Noted.outcome_printedOn_eq_ok_iff, all_shows_iff]
  constructor
  · rintro ⟨hshown, hload⟩
    have hnone : ∀ what, ¬EscapesAt fs (fileOf path) what := by
      intro what hwhat
      rw [hwhat.load_eq] at hload
      cases hload
    exact ⟨hnone, hshown, Except.ok.inj (hload.symm.trans (outcome_load hnone))⟩
  · rintro ⟨hnone, hshown, rfl⟩
    exact ⟨hshown, outcome_load hnone⟩

theorem outcome_printedOn_load_eq_error_iff {failure : Failure} :
    ((load fs path).printedOn c).outcome = .error failure ↔
      (∃ what, EscapesAt fs (fileOf path) what ∧ failure = .defect what) ∨
        ∃ n, Tells fs path n ∧ c.shows n = false ∧ failure = .defect .unfitMarks := by
  by_cases hescapes : ∃ what, EscapesAt fs (fileOf path) what
  · obtain ⟨what, hwhat⟩ := hescapes
    have hload : ((load fs path).printedOn c).outcome = .error (.defect what) := by
      rw [hwhat.load_eq]
      rfl
    rw [hload]
    constructor
    · intro h
      exact .inl ⟨what, hwhat, (Except.error.inj h).symm⟩
    · rintro (⟨what', hwhat', rfl⟩ | ⟨n, hn, -⟩)
      · have hsame := hwhat.load_eq.symm.trans hwhat'.load_eq
        rw [Noted.mk.injEq] at hsame
        rw [hsame.2]
      · exact absurd hn (hwhat.not_tells n)
  · have hnone := not_exists.1 hescapes
    rw [Noted.outcome_printedOn]
    split_ifs with hshown
    · rw [outcome_load hnone]
      refine iff_of_false nofun ?_
      rintro (⟨what, hwhat, -⟩ | ⟨n, hn, hrefused, -⟩)
      · exact hnone what hwhat
      · rw [all_shows_iff.1 hshown n hn] at hrefused
        cases hrefused
    · rw [List.all_eq_true] at hshown
      obtain ⟨n, hn, hrefused⟩ := not_forall₂.1 hshown
      constructor
      · intro h
        exact .inr ⟨n, mem_notices_load.1 hn, eq_false_of_ne_true hrefused,
          (Except.error.inj h).symm⟩
      · rintro (⟨what, hwhat, -⟩ | ⟨-, -, -, rfl⟩)
        · exact absurd hwhat (hnone what)
        · rfl

end Load

/-- **Loading settings gives those of the mapping in the file, or the usual ones, unless the file
holds what it does not handle, or the console refuses what is told.**  It fails exactly if reading
the file comes to octets that are not UTF-8, to collections that are nested too deeply or to a
scalar that is not of its kind, if the format holds an integer that is too long to be written, or
if the marks in a notice do not fit together.  In every other case it gives the settings in the
fields of the mapping; they are the usual ones when there is no file, when it cannot be opened,
when it breaks the rules of YAML and when it holds no mapping.  No mapping is in a file that is
not UTF-8 or that has characters which may not stand in a stream, wherever they are. -/
theorem load_outcome (fs : FileSystem) (path : Option Text) (c : Console) :
    (∀ failure, ((load fs path).printedOn c).outcome = .error failure ↔
      (∃ what, EscapesAt fs (fileOf path) what ∧ failure = .defect what) ∨
        ∃ n, Tells fs path n ∧ c.shows n = false ∧ failure = .defect .unfitMarks) ∧
    (∀ settings, ((load fs path).printedOn c).outcome = .ok settings ↔
      (∀ what, ¬EscapesAt fs (fileOf path) what) ∧ (∀ n, Tells fs path n → c.shows n = true) ∧
        settings = inFields (fieldsAt fs (fileOf path))) ∧
    (∀ fields, HoldsMapping fs (fileOf path) fields → fieldsAt fs (fileOf path) = fields) ∧
    ((∀ fields, ¬HoldsMapping fs (fileOf path) fields) →
      inFields (fieldsAt fs (fileOf path)) = {}) ∧
    (∀ content, fs.read? (fileOf path) = some content → ¬IsStream content →
      ∀ fields, ¬HoldsMapping fs (fileOf path) fields) := by
  refine ⟨fun failure => outcome_printedOn_load_eq_error_iff,
    fun settings => outcome_printedOn_load_eq_ok_iff,
    fun fields => fieldsAt_of_holdsMapping, fun h => ?_, ?_⟩
  · rw [fieldsAt_eq_nil h, inFields_nil]
  · intro content hfile hstream fields h
    exact hstream (h.isStream hfile)

/-- A working directory with a settings file of the given content. -/
def withSettings (content : ByteArray) : FileSystem where
  root := .directory [(defaultFile, .file content)]

theorem read?_withSettings (content : ByteArray) :
    (withSettings content).read? (fileOf none) = some content := rfl

theorem not_isStream_of_ofFile? {content : ByteArray}
    (h : (Text.ofFile? content).isSome = false) : ¬IsStream content := by
  rintro ⟨cs, hcs, -⟩
  rw [hcs] at h
  cases h

/-- No text in UTF-8 has an octet `FF`, and loading settings from such a file fails. -/
theorem load_notUtf8 :
    (withSettings ⟨#[0xFF]⟩).read? (fileOf none) = some ⟨#[0xFF]⟩ ∧ ¬IsStream ⟨#[0xFF]⟩ ∧
      ∀ c, ((load (withSettings ⟨#[0xFF]⟩) none).printedOn c).outcome =
        .error (.defect .undecodable) := by
  have hread : readSingle (.ofFile ⟨#[0xFF]⟩) = .error .undecodable :=
    eq_error_of_problem? (by decide +kernel)
  refine ⟨read?_withSettings _, not_isStream_of_ofFile? (by decide +kernel), fun c => ?_⟩
  rw [load_of_read (read?_withSettings _), hread]
  rfl

/-- A mapping, and an octet behind it that is not UTF-8. -/
def spoiltMapping : ByteArray := "project: demo\n".toUTF8.push 0xFF

theorem holdsMapping_fieldsIn {fs : FileSystem} {file : Text} {content : ByteArray}
    (hfile : fs.read? file = some content) (hne : fieldsIn (readSingle (.ofFile content)) ≠ []) :
    HoldsMapping fs file (fieldsIn (readSingle (.ofFile content))) := by
  cases hread : readSingle (.ofFile content) with
  | error p =>
    rw [hread] at hne
    exact absurd rfl hne
  | ok v =>
    rw [hread, fieldsIn] at hne
    cases hv : v.entries? with
    | none =>
      rw [hv] at hne
      exact absurd rfl hne
    | some fields =>
      refine ⟨content, v, hfile, hread, ?_⟩
      rw [fieldsIn, hv, Option.getD_some]

theorem not_escapes_of_fieldsIn {read : Except Problem Value} (hne : fieldsIn read ≠ [])
    (hshort : (named (fieldsIn read)).holdsLongInteger = false) (what : Defect) :
    ¬Escapes read what := by
  intro hwhat
  cases hwhat with
  | longInteger hv hlong =>
    rw [fieldsIn, hv, Option.getD_some, hlong] at hshort
    cases hshort
  | _ => exact hne rfl

/-- A mapping that gives a format. -/
def formatMapping : ByteArray := "format: JSON\n".toUTF8

/-- A file with a mapping gives its settings; the usual ones come of a file that breaks the rules
of YAML; no mapping is found in front of an octet that is not UTF-8; and a file that does not
exist ends the run when a terminal refuses its name. -/
theorem load_outcome_fourFiles :
    (∃ settings, ((load (withSettings formatMapping) none).printedOn .atUnclosedList).outcome =
      .ok settings ∧ settings.format = .json) ∧
    ((load (withSettings "[unclosed\n".toUTF8) none).printedOn .atUnclosedList).outcome =
      .ok {} ∧
    (∀ fields, ¬HoldsMapping (withSettings spoiltMapping) (fileOf none) fields) ∧
    ((load (withSettings formatMapping) (some "[/x].yaml")).printedOn .atUnclosedList).outcome =
      .error (.defect .unfitMarks) := by
  refine ⟨?_, ?_, ?_, ?_⟩
  · obtain ⟨-, hok, hfields, -⟩ := load_outcome (withSettings formatMapping) none .atUnclosedList
    have hne : fieldsIn (readSingle (.ofFile formatMapping)) ≠ [] :=
      List.ne_nil_of_length_pos (by decide +kernel)
    have hshort : (named (fieldsIn (readSingle (.ofFile formatMapping)))).holdsLongInteger =
        false := by decide +kernel
    have hformat : (inFields (fieldsIn (readSingle (.ofFile formatMapping)))).format = .json := by
      decide +kernel
    have htold : (load (withSettings formatMapping) none).notices.all Console.atUnclosedList.shows =
        true := by decide +kernel
    have hmapping := holdsMapping_fieldsIn (read?_withSettings formatMapping) hne
    refine ⟨_, (hok _).2 ⟨?_, all_shows_iff.1 htold, rfl⟩, ?_⟩
    · rintro what ⟨content, hfile, hwhat⟩
      obtain rfl : formatMapping = content := Option.some.inj hfile
      exact not_escapes_of_fieldsIn hne hshort what hwhat
    · rw [hfields _ hmapping, hformat]
  · obtain ⟨-, hok, -, husual, -⟩ :=
      load_outcome (withSettings "[unclosed\n".toUTF8) none .atUnclosedList
    have hread : readSingle (.ofFile "[unclosed\n".toUTF8) = .error .malformed :=
      eq_error_of_problem? (by decide +kernel)
    have htold : (load (withSettings "[unclosed\n".toUTF8) none).notices.all
        Console.atUnclosedList.shows = true := by
      rw [load_of_read (read?_withSettings _), hread]
      decide +kernel
    have hnone : ∀ fields, ¬HoldsMapping (withSettings "[unclosed\n".toUTF8)
        (fileOf none) fields := by
      rintro fields ⟨content, v, hfile, hv, -⟩
      obtain rfl : "[unclosed\n".toUTF8 = content := Option.some.inj hfile
      rw [hread] at hv
      cases hv
    refine (hok {}).2 ⟨?_, all_shows_iff.1 htold, (husual hnone).symm⟩
    rintro what ⟨content, hfile, hwhat⟩
    obtain rfl : "[unclosed\n".toUTF8 = content := Option.some.inj hfile
    rw [hread] at hwhat
    cases hwhat with
    | unfitScalar hp => exact hp (by decide)
  · obtain ⟨-, -, -, -, hspoilt⟩ := load_outcome (withSettings spoiltMapping) none .atUnclosedList
    exact hspoilt _ (read?_withSettings _) (not_isStream_of_ofFile? (by decide +kernel))
  · obtain ⟨herror, -⟩ :=
      load_outcome (withSettings formatMapping) (some "[/x].yaml") .atUnclosedList
    have hmissing : Tells (withSettings formatMapping) (some "[/x].yaml")
        (.missingSettings "[/x].yaml") := .missing (by decide +kernel) rfl
    exact (herror _).2 (.inr ⟨_, hmissing, by decide +kernel, rfl⟩)

end Settings
end MachineCatalog
