/-
# Machine types of documents

A machine type keeps parts of the wire form that it was read from.  When that is a JSON
document, the parts are documents nested less deep, the texts of integers become integers
that can be shown, and names are cut from texts (`MachineType.exists_fitsIn_of_ofWire`).
So the wire form of the machine type is a JSON document again, nested at most as deep
(`MachineType.FitsIn.toWire`).

What is read is also in order (`MachineType.isRead_of_ofWire`), its id is canonical, and its
disk size is no text.  So it reads back from its wire form exactly as it was, when its times
can be written (`MachineType.exists_readBack`).
-/

import MachineCatalog.Proofs.Json.Document
import MachineCatalog.Proofs.WireForm.RoundTrip
import MachineCatalog.Proofs.WireForm.Rewriting

namespace MachineCatalog

open Value

/-! ### Names -/

namespace MachineTypeId

/-- No name has halves of a pair side by side. -/
structure IsPaired (m : MachineTypeId) : Prop where
  project : Json.IsPaired m.project
  zone : Json.IsPaired m.zone
  machineType : Json.IsPaired m.machineType

theorem isPaired_of_ofUrl? {url : Text} {m : MachineTypeId} (hu : Json.IsPaired url)
    (h : ofUrl? url = some m) : m.IsPaired := by
  have hname : ∀ name ∈ [m.project, m.zone, m.machineType], Json.IsPaired name := fun name hn =>
    hu.infix (Text.infix_of_mem_splitAt (mem_segments_of_ofUrl? h name hn).2)
  exact ⟨hname _ (by simp), hname _ (by simp), hname _ (by simp)⟩

theorem isPaired_of_ofUrl {depth : Nat} {url : Value} {m : MachineTypeId}
    (hu : Json.FitsIn depth url) (h : ofUrl url = .ok m) : m.IsPaired := by
  obtain ⟨s, rfl, hs⟩ := exists_text_of_ofUrl h
  exact isPaired_of_ofUrl? hu.isPaired hs

theorem IsPaired.selfLink {m : MachineTypeId} (h : m.IsPaired) : Json.IsPaired m.selfLink := by
  have hslash : (CodePoint.ofChar '/').isHalf = false := CodePoint.isHalf_ofChar _
  rw [selfLink_eq]
  refine Json.isPaired_append_cons (Json.isPaired_ofString _) ?_ hslash
  refine Json.isPaired_append_cons (Json.isPaired_ofString _) ?_ hslash
  refine Json.isPaired_append_cons h.project ?_ hslash
  refine Json.isPaired_append_cons (Json.isPaired_ofString _) ?_ hslash
  refine Json.isPaired_append_cons h.zone ?_ hslash
  exact Json.isPaired_append_cons (Json.isPaired_ofString _) h.machineType hslash

end MachineTypeId

/-! ### Times -/

theorem Json.hasNoHalf_padded (width n : Nat) : HasNoHalf (Text.padded width n) :=
  hasNoHalf_ofChars _

theorem Date.hasNoHalf_text (d : Date) : Json.HasNoHalf d.text := by
  have hdash : Json.HasNoHalf "-" := Json.hasNoHalf_ofString "-"
  have hyear := Json.hasNoHalf_padded 4 d.year
  have hmonth := Json.hasNoHalf_padded 2 d.month
  exact (((hyear.append hdash).append hmonth).append hdash).append (Json.hasNoHalf_padded 2 d.day)

theorem TimeOfDay.hasNoHalf_text (t : TimeOfDay) : Json.HasNoHalf t.text := by
  have hcolon : Json.HasNoHalf ":" := Json.hasNoHalf_ofString ":"
  have hhour := Json.hasNoHalf_padded 2 t.hour
  have hminute := Json.hasNoHalf_padded 2 t.minute
  exact (((hhour.append hcolon).append hminute).append hcolon).append
    (Json.hasNoHalf_padded 2 t.second)

namespace Timestamp

theorem hasNoHalf_stamp (date : Date) (time : TimeOfDay) : Json.HasNoHalf (stamp date time) := by
  have hdate := date.hasNoHalf_text.append (Json.hasNoHalf_ofString "T")
  have htime := (hdate.append time.hasNoHalf_text).append (Json.hasNoHalf_ofString ".")
  exact (htime.append (Json.hasNoHalf_padded 3 _)).append (Json.hasNoHalf_ofString "+00:00")

/-- Whatever instant a text is written for, it has no halves of pairs. -/
theorem hasNoHalf_of_renderMicros? {micros : Int} {t : Text} (h : renderMicros? micros = some t) :
    Json.HasNoHalf t := by
  rw [renderMicros?] at h
  obtain ⟨m, -, rfl⟩ := Option.map_eq_some_iff.1 h
  exact hasNoHalf_stamp m.date m.time

theorem hasNoHalf_of_render {millis : Int} {t : Text} (h : render (.int millis) = .ok t) :
    Json.HasNoHalf t := by
  simp only [render] at h
  split at h
  · rename_i ht
    obtain rfl := Except.ok.inj h
    exact hasNoHalf_of_renderMicros? ht
  · exact absurd h (reject_ne_ok _ _)

end Timestamp

/-! ### Integers that were texts -/

namespace Text

theorem lt_of_digitIn? {base d : Nat} {c : Char} (h : digitIn? base c = some d) : d < base := by
  rw [digitIn?] at h
  exact of_decide_eq_true (Option.filter_eq_some_iff.1 h).2

/-- A digit in front of digits of the base. -/
theorem lt_of_mem_digitValues?_cons {base : Nat} {c : Char} {rest : List Char} {ds : List Nat}
    (hrest : ∀ ds, laterDigits? base rest = some ds → ∀ d ∈ ds, d < base)
    (h : digitValues? base (c :: rest) = some ds) : ∀ d ∈ ds, d < base := by
  obtain ⟨d, hd, h⟩ := Option.bind_eq_some_iff.1 h
  obtain ⟨more, hmore, h⟩ := Option.bind_eq_some_iff.1 h
  obtain rfl := Option.some.inj h
  exact List.forall_mem_cons.2 ⟨lt_of_digitIn? hd, hrest more hmore⟩

theorem lt_of_mem_laterDigits? {base : Nat} {cs : List Char} {ds : List Nat}
    (h : laterDigits? base cs = some ds) : ∀ d ∈ ds, d < base := by
  induction cs using laterDigits?.induct generalizing ds with
  | case1 =>
    obtain rfl := Option.some.inj h
    exact List.forall_mem_nil _
  | case2 c rest ih => exact lt_of_mem_digitValues?_cons (fun _ => ih) h
  | case3 c rest hne ih =>
    rw [laterDigits?] at h
    · exact lt_of_mem_digitValues?_cons (fun _ => ih) h
    · exact hne

theorem lt_of_mem_digitValues? {base : Nat} {cs : List Char} {ds : List Nat}
    (h : digitValues? base cs = some ds) : ∀ d ∈ ds, d < base := by
  cases cs with
  | nil => cases h
  | cons c rest => exact lt_of_mem_digitValues?_cons (fun _ => lt_of_mem_laterDigits?) h

/-- **An integer that was read in decimal can be shown.** -/
theorem isLongInteger_of_readInteger? {cs : List Char} {n : Int}
    (h : readInteger? 10 cs = some n) : isLongInteger n = false := by
  rw [readInteger?] at h
  dsimp only at h
  obtain ⟨ds, hds, h⟩ := Option.bind_eq_some_iff.1 h
  split_ifs at h with hlong
  · cases h
  · obtain rfl := Option.some.inj h
    have hshort : ds.length ≤ decimalDigitLimit := by simpa using hlong
    have hlt := (ofDigitValues_lt (lt_of_mem_digitValues? hds)).trans_le
      (Nat.pow_le_pow_right (by decide : 0 < 10) hshort)
    rw [Numeral.isLongInteger_eq_false_iff, withSign]
    split_ifs <;> omega

end Text

/-! ### Deprecation status -/

namespace DeprecationStatus

theorem fitsIn_stamp? {millis : Value} {v : Option Value} (h : stamp? millis = .ok v)
    (hread : Timestamp.IsRead millis) (depth : Nat) : ∀ u ∈ v, Json.FitsIn depth u := by
  rintro u hu
  rcases hread with rfl | ⟨-, n, rfl, -⟩
  · obtain rfl := Except.ok.inj h
    cases hu
  · obtain ⟨t, ht, rfl⟩ := map_eq_ok_iff.1 h
    obtain rfl := Option.some.inj hu
    exact Json.fitsIn_text (Timestamp.hasNoHalf_of_render ht).isPaired depth

theorem isPaired_label (s : Status) : Json.IsPaired s.label := by
  cases s <;> decide

theorem isPaired_wireKeys : ∀ k ∈ wireKeys, Json.IsPaired k := by decide

/-- The wire form of a status with a paired replacement is a document. -/
theorem fitsIn_toWire {d : DeprecationStatus} {w : Value} (h : d.toWire = .ok w) (hread : d.IsRead)
    (hr : ∀ m ∈ d.replacement, m.IsPaired) : Json.FitsIn 1 w := by
  obtain ⟨deprecated, obsolete, deleted, h₁, h₂, h₃, rfl⟩ := toWire_eq_ok_iff.1 h
  have hreplacement : ∀ v ∈ d.replacement.map fun m => Value.text m.selfLink, Json.FitsIn 0 v := by
    rintro v hv
    obtain ⟨m, hm, rfl⟩ := Option.map_eq_some_iff.1 hv
    exact Json.fitsIn_text (hr m hm).selfLink 0
  have hkeys := keys_fields d deprecated obsolete deleted
  refine Json.fitsIn_present (hkeys ▸ nodup_wireKeys) (hkeys ▸ isPaired_wireKeys) ?_
  simp only [fields, List.forall_mem_cons]
  refine ⟨fun v hv => ?_, hreplacement, fitsIn_stamp? h₁ hread.deprecated 0,
    fitsIn_stamp? h₂ hread.obsolete 0, fitsIn_stamp? h₃ hread.deleted 0, List.forall_mem_nil _⟩
  obtain rfl := Option.some.inj hv
  exact Json.fitsIn_text (isPaired_label d.status) 0

/-- The status of a document has a paired replacement. -/
theorem isPaired_of_ofWire {depth : Nat} {payload : Value} {d : DeprecationStatus}
    (hp : Json.FitsIn depth payload) (h : ofWire payload = .ok d) :
    0 < depth ∧ ∀ m ∈ d.replacement, m.IsPaired := by
  obtain ⟨fields, hf, hread⟩ := ofWire_eq_ok_iff.1 h
  obtain ⟨inner, rfl, hfields⟩ := hp.exists_entries hf
  refine ⟨Nat.succ_pos inner, fun m hm => ?_⟩
  exact MachineTypeId.isPaired_of_ofUrl (Json.fitsIn_get hfields _)
    (ofUrl_of_mem_replacementOf hread.replacement m hm)

end DeprecationStatus

/-! ### Machine types -/

namespace MachineType

/-- The parts of a document that a machine type holds, nested at most that deep. -/
structure FitsIn (depth : Nat) (m : MachineType) : Prop where
  identity : m.machineTypeId.IsPaired
  description : Json.FitsIn depth m.description
  cpus : Json.FitsIn depth m.cpus
  memoryMb : Json.FitsIn depth m.memoryMb
  scratchDisks : ∀ sizes ∈ m.scratchDisksSizeGb, Json.FitsIn depth (disks sizes)
  maximumPersistentDisks : Json.FitsIn depth m.maximumPersistentDisks
  maximumPersistentDisksSizeGb : Json.FitsIn depth m.maximumPersistentDisksSizeGb
  deprecationStatus : ∀ d ∈ m.deprecationStatus, 0 < depth ∧ ∀ r ∈ d.replacement, r.IsPaired

theorem fitsIn_of_integerOf {depth : Nat} {v size : Value} (hv : Json.FitsIn depth v)
    (h : integerOf v = .ok size) : Json.FitsIn depth size := by
  unfold integerOf at h
  split at h
  · split at h
    · rename_i hn
      obtain rfl := Except.ok.inj h
      exact Json.fitsIn_int (Text.isLongInteger_of_readInteger? hn) depth
    · exact absurd h (reject_ne_ok _ _)
  · obtain rfl := Except.ok.inj h
    exact hv

/-- What is read as a number is no text any more. -/
theorem ne_text_of_integerOf {v size : Value} (h : integerOf v = .ok size) (s : Text) :
    size ≠ .text s := by
  unfold integerOf at h
  split at h
  · split at h
    · obtain rfl := Except.ok.inj h
      simp
    · exact absurd h (reject_ne_ok _ _)
  · rename_i hne
    obtain rfl := Except.ok.inj h
    exact hne s

theorem fitsIn_disk {depth : Nat} {size : Value} (h : Json.FitsIn depth size) :
    Json.FitsIn (depth + 1) (.object [("diskGb", size)]) := by
  have hkey : Json.IsPaired "diskGb" := by decide
  exact Json.fitsIn_object (by simp) (List.forall_mem_singleton.2 hkey)
    (List.forall_mem_singleton.2 h)

/-- The object that is written for a disk is nested no deeper than the one that was read. -/
theorem fitsIn_of_diskSizes {depth i : Nat} {items sizes : List Value}
    (hitems : ∀ v ∈ items, Json.FitsIn depth v) (h : diskSizes i items = .ok sizes) :
    ∀ size ∈ sizes, Json.FitsIn depth (.object [("diskGb", size)]) := by
  intro size hs
  obtain ⟨disk, hd, fields, hf, rfl⟩ := exists_disk_of_mem_diskSizes h size hs
  obtain ⟨inner, rfl, hfields⟩ := (hitems disk hd).exists_entries hf
  exact fitsIn_disk (Json.fitsIn_get hfields "diskGb")

theorem fitsIn_of_scratchSizes {depth : Nat} {v : Value} {read : Option (List Value)}
    (hv : Json.FitsIn depth v) (h : scratchSizes v = .ok read) :
    ∀ sizes ∈ read, Json.FitsIn depth (disks sizes) := by
  rintro sizes hs
  rw [scratchSizes] at h
  split_ifs at h
  · exact absurd ((Except.ok.inj h).trans hs) (by simp)
  · split at h
    · rename_i items hi
      obtain ⟨sizes', hd, he⟩ := map_eq_ok_iff.1 h
      obtain rfl : sizes' = sizes := Option.some.inj (he.trans hs)
      obtain ⟨inner, rfl, -, hitems⟩ := hv.exists_items hi
      refine Json.fitsIn_list fun u hu => ?_
      obtain ⟨size, hsize, rfl⟩ := List.mem_map.1 hu
      exact fitsIn_of_diskSizes hitems hd size hsize
    · exact absurd h (reject_ne_ok _ _)

theorem fitsIn_of_statusOf {depth : Nat} {v : Value} {status : Option DeprecationStatus}
    (hv : Json.FitsIn depth v) (h : statusOf v = .ok status) :
    ∀ d ∈ status, 0 < depth ∧ ∀ r ∈ d.replacement, r.IsPaired :=
  fun d hd => DeprecationStatus.isPaired_of_ofWire hv (ofWire_of_mem_statusOf h d hd)

/-- **A machine type that was read from a document holds parts of it**, all nested less deep. -/
theorem exists_fitsIn_of_ofWire {depth : Nat} {payload : Value} {m : MachineType}
    (hp : Json.FitsIn depth payload) (h : ofWire payload = .ok m) :
    ∃ inner, depth = inner + 1 ∧ m.FitsIn inner := by
  obtain ⟨fields, hf, hread⟩ := ofWire_eq_ok_iff.1 h
  obtain ⟨inner, rfl, hfields⟩ := hp.exists_entries hf
  have hget := Json.fitsIn_get hfields
  exact ⟨inner, rfl,
    { identity :=
        MachineTypeId.isPaired_of_ofUrl (hget _) (identityOf_eq_ok_iff.1 hread.identity)
      description := hread.description ▸ hget _
      cpus := hread.cpus ▸ hget _
      memoryMb := hread.memoryMb ▸ hget _
      scratchDisks := fitsIn_of_scratchSizes (hget _) hread.scratchDisks
      maximumPersistentDisks := hread.maximumPersistentDisks ▸ hget _
      maximumPersistentDisksSizeGb :=
        fitsIn_of_integerOf (hget _) hread.maximumPersistentDisksSizeGb
      deprecationStatus := fitsIn_of_statusOf (hget _) hread.deprecationStatus }⟩

theorem isPaired_wireKeys : ∀ k ∈ wireKeys, Json.IsPaired k := by decide

theorem fitsIn_id? {id : Value} {v : Option Value} (hid : NumericId.IsRead id)
    (h : id? id = .ok v) (depth : Nat) : ∀ u ∈ v, Json.FitsIn depth u := by
  rintro u hu
  rcases hid with rfl | ⟨n, rfl, hn⟩
  · obtain rfl := Except.ok.inj h
    cases hu
  · rw [id?, NumericId.encode_signedDecimal hn] at h
    obtain rfl := Except.ok.inj h
    obtain rfl := Option.some.inj hu
    exact Json.fitsIn_int hn depth

theorem fitsIn_status? {depth : Nat} {status : Option DeprecationStatus} {v : Option Value}
    (hread : ∀ d ∈ status, d.IsRead)
    (hfits : ∀ d ∈ status, 0 < depth ∧ ∀ r ∈ d.replacement, r.IsPaired)
    (h : status? status = .ok v) : ∀ u ∈ v, Json.FitsIn depth u := by
  rintro u hu
  cases status with
  | none =>
    obtain rfl := Except.ok.inj h
    cases hu
  | some d =>
    obtain ⟨w, hw, rfl⟩ := map_eq_ok_iff.1 h
    obtain rfl := Option.some.inj hu
    obtain ⟨hpos, hr⟩ := hfits d rfl
    exact (DeprecationStatus.fitsIn_toWire hw (hread d rfl) hr).mono hpos

/-- **The wire form of a machine type that was read from a document is a document**, nested
no deeper. -/
theorem FitsIn.toWire {depth : Nat} {m : MachineType} {w : Value} (h : m.FitsIn depth)
    (hread : m.IsRead) (hw : m.toWire = .ok w) : Json.FitsIn (depth + 1) w := by
  obtain ⟨id, creation, deprecated, hi, hc, hd, rfl⟩ := toWire_eq_ok_iff.1 hw
  have hgiven {v : Value} (hv : Json.FitsIn depth v) : ∀ u ∈ v.given?, Json.FitsIn depth u :=
    fun u hu => mem_given? hu ▸ hv
  have htext {t : Text} (ht : Json.IsPaired t) : ∀ u ∈ some (Value.text t), Json.FitsIn depth u :=
    fun u hu => Option.some.inj hu ▸ Json.fitsIn_text ht depth
  have hdisks : ∀ u ∈ m.scratchDisksSizeGb.map disks, Json.FitsIn depth u := by
    rintro u hu
    obtain ⟨sizes, hs, rfl⟩ := Option.map_eq_some_iff.1 hu
    exact h.scratchDisks sizes hs
  have hkeys := keys_fields m id creation deprecated
  refine Json.fitsIn_present (hkeys ▸ nodup_wireKeys) (hkeys ▸ isPaired_wireKeys) ?_
  simp only [fields, List.forall_mem_cons]
  exact ⟨fitsIn_id? hread.id hi depth,
    DeprecationStatus.fitsIn_stamp? hc hread.creationTimestamp depth,
    htext h.identity.machineType, hgiven h.description, htext h.identity.selfLink, hgiven h.cpus,
    hgiven h.memoryMb, hdisks, hgiven h.maximumPersistentDisks,
    hgiven h.maximumPersistentDisksSizeGb, htext h.identity.zone,
    fitsIn_status? hread.deprecationStatus h.deprecationStatus hd, List.forall_mem_nil _⟩

end MachineType

/-! ### Reading back -/

theorem Timestamp.isWritable_of_isRead {v : Value} (h : IsRead v)
    (hn : ∀ n, v = .int n → InRange n) : IsWritable v := by
  rcases h with rfl | ⟨-, n, rfl, -⟩
  · exact .inl rfl
  · exact .inr ⟨n, rfl, hn n rfl⟩

/-- An id that was read is canonical. -/
theorem NumericId.canonical_of_isRead {id : Value} (h : IsRead id) : Canonical id id := by
  rcases h with rfl | ⟨n, rfl, hn⟩
  · exact .unset
  · have hid := Canonical.numeral (.canonical n) ((Numeral.isShort_canonical_iff n).2 hn)
    rwa [Numeral.text_canonical, Numeral.value_canonical] at hid

theorem DeprecationStatus.regular_of_isRead {d : DeprecationStatus} (h : d.IsRead)
    (hn : ∀ n, .int n ∈ d.times → Timestamp.InRange n) : d.Regular where
  replacement := h.replacement
  deprecated := Timestamp.isWritable_of_isRead h.deprecated fun n he => hn n (by simp [times, he])
  obsolete := Timestamp.isWritable_of_isRead h.obsolete fun n he => hn n (by simp [times, he])
  deleted := Timestamp.isWritable_of_isRead h.deleted fun n he => hn n (by simp [times, he])

namespace MachineType

/-- **What was read is written when its times are in the years 1 to 9999, and reads back
exactly as it was.** -/
theorem exists_readBack {payload : Value} {m : MachineType} (h : ofWire payload = .ok m)
    (htimes : ∀ n, .int n ∈ m.times → Timestamp.InRange n) :
    ∃ w, m.toWire = .ok w ∧ ofWire w = .ok m := by
  have hread := isRead_of_ofWire h
  have hcreation : Timestamp.IsWritable m.creationTimestamp :=
    Timestamp.isWritable_of_isRead hread.creationTimestamp
      fun n he => htimes n (by simp [times, he])
  have hstatus : ∀ d ∈ m.deprecationStatus, d.Regular := by
    rintro d hd
    refine DeprecationStatus.regular_of_isRead (hread.deprecationStatus d hd) fun n hn => ?_
    exact htimes n (by simp [times, Option.mem_def.1 hd, hn])
  have hsize (s : Text) : m.maximumPersistentDisksSizeGb ≠ .text s := by
    obtain ⟨fields, -, hf⟩ := ofWire_eq_ok_iff.1 h
    exact ne_text_of_integerOf hf.maximumPersistentDisksSizeGb s
  obtain ⟨id, hi, -, hri⟩ := exists_id? (NumericId.canonical_of_isRead hread.id)
  obtain ⟨creation, hc, -, hrc⟩ := DeprecationStatus.exists_stamp? hcreation
  obtain ⟨deprecated, hd, hrd⟩ := exists_status? hstatus
  refine ⟨_, toWire_eq_ok_iff.2 ⟨id, creation, deprecated, hi, hc, hd, rfl⟩, ?_⟩
  exact ofWire_eq_ok_iff.2
    ⟨_, entries?_object _, readsAs_present hread.identity hsize hri hrc hrd⟩

end MachineType
end MachineCatalog
