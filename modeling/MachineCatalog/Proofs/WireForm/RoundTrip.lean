/-
# The wire form is read back

A machine type whose wire form can carry it is written, and reading what was
written gives it back with its id in canonical form (`MachineType.ofWire_toWire`).
It can be carried when its names are segments, its times are in the years 1 to
9999, and its disk size is no text (`MachineType.Regular`); the id is unset or a
decimal text.  Everything else may be any value.

Each field has a codec of its own: times (`DeprecationStatus.exists_stamp?`), ids
(`MachineType.exists_id?`), scratch disks (`MachineType.scratchSizes_disks`) and the
deprecation status (`DeprecationStatus.exists_toWire`).
-/

import MachineCatalog.Proofs.Numeral
import MachineCatalog.Proofs.SelfLink
import MachineCatalog.Proofs.Timestamp.RoundTrip
import MachineCatalog.Proofs.WireForm.Fields
import MachineCatalog.Proofs.WireForm.Reading

namespace MachineCatalog

open Value

namespace Timestamp

/-- Unset, or milliseconds in the years 1 to 9999. -/
def IsWritable (millis : Value) : Prop := millis = .null ∨ ∃ n, millis = .int n ∧ InRange n

/-- The texts of instants in range are not empty. -/
theorem stamp_ne_nil (date : Date) (time : TimeOfDay) : stamp date time ≠ [] := by
  rw [stamp]
  exact List.append_ne_nil_of_right_ne_nil _ (by decide)

/-- **Milliseconds in the years 1 to 9999 are written, and read back.** -/
theorem exists_render_parse {n : Int} (h : InRange n) :
    ∃ t, render (.int n) = .ok t ∧ t ≠ [] ∧ parse (.text t) = .ok n := by
  obtain ⟨date, time, he, -⟩ := exists_renderMillis? h
  exact ⟨_, by simp only [render, he], stamp_ne_nil date time,
    parse_of_millis? (millis?_of_renderMillis? he)⟩

end Timestamp

namespace DeprecationStatus

/-- The field of a timestamp reads back, whether it is there or left out, inside a
deprecation status and outside. -/
theorem exists_stamp? {millis : Value} (h : Timestamp.IsWritable millis) :
    ∃ v, stamp? millis = .ok v ∧ millisOf (v.getD .null) = .ok millis ∧
      MachineType.timeOf (v.getD .null) = .ok millis := by
  rcases h with rfl | ⟨n, rfl, hn⟩
  · exact ⟨none, rfl, rfl, rfl⟩
  · obtain ⟨t, hr, hne, hp⟩ := Timestamp.exists_render_parse hn
    refine ⟨some (.text t), ?_, ?_, ?_⟩
    · rw [stamp?, hr]
      rfl
    · have hc : (Value.text t).counts = true := by simpa [counts] using hne
      rw [Option.getD_some, millisOf, hc, if_pos rfl, hp]
      rfl
    · rw [Option.getD_some, MachineType.timeOf, MachineType.optional, hp]
      rfl

theorem ofLabel?_label (s : Status) : Status.ofLabel? s.label = some s := by
  cases s <;> decide

/-- A replacement is found again by its self link. -/
theorem replacementOf_selfLink {replacement : Option MachineTypeId}
    (h : ∀ m ∈ replacement, m.WellFormed) :
    replacementOf ((replacement.map fun m => .text m.selfLink).getD .null) = .ok replacement := by
  cases replacement with
  | none => rfl
  | some m =>
    have hc : (Value.text m.selfLink).counts = true := by
      simpa [counts] using MachineTypeId.selfLink_ne_nil m
    rw [Option.map_some, Option.getD_some, replacementOf, hc, if_pos rfl,
      MachineTypeId.ofUrl_selfLink (h m rfl), map_ok]

/-- A status that the wire form can carry. -/
structure Regular (d : DeprecationStatus) : Prop where
  replacement : ∀ m ∈ d.replacement, m.WellFormed
  deprecated : Timestamp.IsWritable d.deprecated
  obsolete : Timestamp.IsWritable d.obsolete
  deleted : Timestamp.IsWritable d.deleted

/-- The fields of a wire form read as the status when those of its timestamps do. -/
theorem readsAs_present {d : DeprecationStatus} {deprecated obsolete deleted : Option Value}
    (h : ∀ m ∈ d.replacement, m.WellFormed)
    (h₁ : millisOf (deprecated.getD .null) = .ok d.deprecated)
    (h₂ : millisOf (obsolete.getD .null) = .ok d.obsolete)
    (h₃ : millisOf (deleted.getD .null) = .ok d.deleted) :
    ReadsAs ((present (d.fields deprecated obsolete deleted)).map fun f => (.text f.1, f.2)) d := by
  have hget (k : Text) := get_present (keys_fields d deprecated obsolete deleted ▸ nodup_wireKeys) k
  have hs : statusOf (.text d.status.label) = .ok d.status := by
    simp only [statusOf, ofLabel?_label]
  constructor
  · exact (congrArg statusOf (hget _)).trans hs
  · exact (congrArg replacementOf (hget _)).trans (replacementOf_selfLink h)
  · exact (congrArg millisOf (hget _)).trans h₁
  · exact (congrArg millisOf (hget _)).trans h₂
  · exact (congrArg millisOf (hget _)).trans h₃

/-- **A deprecation status is written, and reads back as it was.** -/
theorem exists_toWire {d : DeprecationStatus} (h : d.Regular) :
    ∃ v, d.toWire = .ok v ∧ v.isNull = false ∧ ofWire v = .ok d := by
  obtain ⟨deprecated, hw₁, hr₁, -⟩ := exists_stamp? h.deprecated
  obtain ⟨obsolete, hw₂, hr₂, -⟩ := exists_stamp? h.obsolete
  obtain ⟨deleted, hw₃, hr₃, -⟩ := exists_stamp? h.deleted
  refine ⟨_, by rw [toWire_eq, hw₁, hw₂, hw₃]; rfl, rfl, ?_⟩
  exact ofWire_eq_ok_iff.2 ⟨_, entries?_object _, readsAs_present h.replacement hr₁ hr₂ hr₃⟩

end DeprecationStatus

namespace NumericId

/-- An id, and the id that it becomes: unset stays unset, and a decimal text becomes
the canonical text of its integer. -/
inductive Canonical : Value → Value → Prop
  | unset : Canonical .null .null
  | numeral (x : Numeral) (h : x.IsShort) :
      Canonical (.text x.text) (.text (Text.signedDecimal x.value))

end NumericId

namespace MachineType

/-- An id is written, and reads back in canonical form, which is written alike. -/
theorem exists_id? {id canonical : Value} (h : NumericId.Canonical id canonical) :
    ∃ v, id? id = .ok v ∧ id? canonical = .ok v ∧ idOf (v.getD .null) = .ok canonical := by
  cases h with
  | unset => exact ⟨none, rfl, rfl, rfl⟩
  | numeral x hx =>
    have hl := hx.isLongInteger_value
    have hd : NumericId.decode (.int x.value) = .ok (Text.signedDecimal x.value) :=
      NumericId.decode_eq_ok_iff.2 ⟨_, rfl, hl, rfl⟩
    refine ⟨some (.int x.value), ?_, ?_, ?_⟩
    · rw [id?, NumericId.encode_text hx]
      rfl
    · rw [id?, NumericId.encode_signedDecimal hl]
      rfl
    · rw [Option.getD_some, idOf, optional, hd]
      rfl

theorem diskSizes_disks (i : Nat) (sizes : List Value) :
    diskSizes i (sizes.map fun size => .object [("diskGb", size)]) = .ok sizes := by
  induction sizes generalizing i with
  | nil => rfl
  | cons size sizes ih =>
    have hget : Value.get [(.text "diskGb", size)] "diskGb" = size := by
      simp [Value.get, Value.get?, Value.isText]
    rw [List.map_cons, diskSizes, entries?_object]
    simp only [ih, ok_bind, List.map_cons, List.map_nil, hget]
    rfl

/-- The objects of scratch disks give the sizes in order; unset stays unset. -/
theorem scratchSizes_disks (sizes : Option (List Value)) :
    scratchSizes ((sizes.map disks).getD .null) = .ok sizes := by
  cases sizes with
  | none => rfl
  | some sizes =>
    rw [Option.map_some, Option.getD_some, scratchSizes, disks, items?_list]
    simp only [diskSizes_disks]
    rfl

theorem integerOf_of_ne_text {v : Value} (h : ∀ s, v ≠ .text s) : integerOf v = .ok v := by
  cases v with
  | text s => exact absurd rfl (h s)
  | _ => rfl

/-- A deprecation status is written and reads back, and so does none. -/
theorem exists_status? {status : Option DeprecationStatus} (h : ∀ d ∈ status, d.Regular) :
    ∃ v, status? status = .ok v ∧ statusOf (v.getD .null) = .ok status := by
  cases status with
  | none => exact ⟨none, rfl, rfl⟩
  | some d =>
    obtain ⟨v, hw, hn, hr⟩ := DeprecationStatus.exists_toWire (h d rfl)
    refine ⟨some v, by rw [status?, hw]; rfl, ?_⟩
    rw [Option.getD_some, statusOf, hn, if_neg Bool.false_ne_true, hr]
    rfl

/-- A machine type that the wire form can carry; its id is apart. -/
structure Regular (m : MachineType) : Prop where
  identity : m.machineTypeId.WellFormed
  creationTimestamp : Timestamp.IsWritable m.creationTimestamp
  diskLimit : ∀ s, m.maximumPersistentDisksSizeGb ≠ .text s
  deprecationStatus : ∀ d ∈ m.deprecationStatus, d.Regular

/-- The fields of a wire form read as the machine type when the encoded ones do. -/
theorem readsAs_present {m : MachineType} {number creation deprecated : Option Value} {id : Value}
    (hm : m.machineTypeId.WellFormed) (hs : ∀ s, m.maximumPersistentDisksSizeGb ≠ .text s)
    (hn : idOf (number.getD .null) = .ok id)
    (hc : timeOf (creation.getD .null) = .ok m.creationTimestamp)
    (hd : statusOf (deprecated.getD .null) = .ok m.deprecationStatus) :
    ReadsAs ((present (m.fields number creation deprecated)).map fun f => (.text f.1, f.2))
      { m with id } := by
  have hget (k : Text) := get_present (keys_fields m number creation deprecated ▸ nodup_wireKeys) k
  have hi : identityOf (.text m.machineTypeId.selfLink) = .ok m.machineTypeId :=
    identityOf_eq_ok_iff.2 (MachineTypeId.ofUrl_selfLink hm)
  have hl : integerOf (m.maximumPersistentDisksSizeGb.given?.getD .null) =
      .ok m.maximumPersistentDisksSizeGb := by
    rw [getD_given?]
    exact integerOf_of_ne_text hs
  constructor
  · exact (congrArg identityOf (hget _)).trans hi
  · exact (congrArg idOf (hget _)).trans hn
  · exact (congrArg timeOf (hget _)).trans hc
  · exact (hget _).trans (getD_given? m.description)
  · exact (hget _).trans (getD_given? m.cpus)
  · exact (hget _).trans (getD_given? m.memoryMb)
  · exact (congrArg scratchSizes (hget _)).trans (scratchSizes_disks m.scratchDisksSizeGb)
  · exact (hget _).trans (getD_given? m.maximumPersistentDisks)
  · exact (congrArg integerOf (hget _)).trans hl
  · exact (congrArg statusOf (hget _)).trans hd

/-- **A machine type is written, and reads back as it was**, but for its id, which is
then in canonical form.  The two are equal, and their wire forms are one. -/
theorem ofWire_toWire {m : MachineType} {id : Value} (h : m.Regular)
    (hid : NumericId.Canonical m.id id) :
    ∃ w, m.toWire = .ok w ∧ ofWire w = .ok { m with id } ∧
      equals { m with id } m = .ok true ∧ equals m { m with id } = .ok true ∧
      toWire { m with id } = .ok w := by
  obtain ⟨number, hn, hn', hrn⟩ := exists_id? hid
  obtain ⟨creation, hc, -, hrc⟩ := DeprecationStatus.exists_stamp? h.creationTimestamp
  obtain ⟨deprecated, hd, hrd⟩ := exists_status? h.deprecationStatus
  have hw : m.toWire = .ok (.object (present (m.fields number creation deprecated))) := by
    rw [toWire_eq, hn, hc, hd]
    rfl
  have hw' : toWire { m with id } =
      .ok (.object (present (m.fields number creation deprecated))) := by
    rw [toWire_eq, hn', hc, hd]
    rfl
  have hsame := same_refl (.object (present (m.fields number creation deprecated)))
  refine ⟨_, hw, ?_, ?_, ?_, hw'⟩
  · exact ofWire_eq_ok_iff.2
      ⟨_, entries?_object _, readsAs_present h.identity h.diskLimit hrn hrc hrd⟩
  · rw [equals, hw, hw', ok_bind, ok_bind, hsame, pure_eq_ok]
  · rw [equals, hw, hw', ok_bind, ok_bind, hsame, pure_eq_ok]

/-- A machine type with every attribute set, to zero or to nothing where it can be. -/
def everyField : MachineType where
  machineTypeId := ⟨"p", "z", "n1-standard-1"⟩
  id := .text "+007"
  creationTimestamp := .int (-62135596800000)
  description := .text ""
  cpus := .int 0
  memoryMb := .list [.bool false, .null]
  scratchDisksSizeGb := some [.int 2, .int 1, .null]
  maximumPersistentDisks := .object []
  maximumPersistentDisksSizeGb := .int 0
  deprecationStatus := some {
    status := .obsolete
    replacement := some ⟨"p", "z", "n2"⟩
    deprecated := .int (-1)
    obsolete := .null
    deleted := .int 253402300799999 }

/-- Every attribute of `everyField` comes back, and the id `+007` as `7`. -/
theorem ofWire_toWire_everyField :
    everyField.Regular ∧ NumericId.Canonical everyField.id (.text "7") ∧
      ∃ w, everyField.toWire = .ok w ∧ ofWire w = .ok { everyField with id := .text "7" } := by
  have hd : ∀ d ∈ everyField.deprecationStatus, d.Regular := by
    rintro d hd
    obtain rfl := Option.some.inj hd
    refine ⟨?_, .inr ⟨_, rfl, by decide⟩, .inl rfl, .inr ⟨_, rfl, by decide⟩⟩
    rintro m hm
    obtain rfl := Option.some.inj hm
    exact ⟨by decide, by decide, by decide⟩
  have hr : everyField.Regular :=
    ⟨⟨by decide, by decide, by decide⟩, .inr ⟨_, rfl, by decide⟩, nofun, hd⟩
  let seven : Numeral := ⟨.plus, [0, 0, 7], by decide⟩
  have ht : seven.text = "+007" := by decide
  have hv : Text.signedDecimal seven.value = "7" := by decide
  have hid : NumericId.Canonical everyField.id (.text "7") := by
    have h := NumericId.Canonical.numeral seven (by decide)
    rwa [ht, hv] at h
  obtain ⟨w, hw, ho, -⟩ := ofWire_toWire hr hid
  exact ⟨hr, hid, w, hw, ho⟩

end MachineType
end MachineCatalog
