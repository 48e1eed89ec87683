/-
# Equality of machine types

Machine types are equal when their wire forms are the same.  Where the wire forms
hold JSON values, that is reflexive, symmetric and transitive, and equal machine
types have the same identity, whatever its names hold.  Between machine types that
were read it loses nothing: they are equal exactly when they agree in every
attribute.

Each encoded field keeps apart what it encodes: ids (`MachineType.sameField_id?_iff`),
times (`DeprecationStatus.sameField_stamp?_iff`), scratch disks
(`MachineType.same_disks_iff`) and deprecation statuses
(`DeprecationStatus.same_toWire_iff`).
-/

import MachineCatalog.Proofs.Timestamp.RoundTrip
import MachineCatalog.Proofs.WireForm.Rewriting

namespace MachineCatalog

open Value

namespace Value

theorem same_text_text_iff (s t : Text) : same (.text s) (.text t) = true ↔ s = t := by
  rw [text_same_iff, Value.text.injEq, eq_comm]

theorem same_int_int_iff (n k : Int) : same (.int n) (.int k) = true ↔ n = k := by
  have hone : 0 < Binary64.one := by decide +kernel
  rw [same_of_quantity rfl, sameQuantity_eq_true_iff]
  constructor
  · rintro ⟨q, hn, hk⟩
    have h : n * Binary64.one = k * Binary64.one :=
      Quantity.finite.inj (Option.some.inj (hn.trans hk.symm))
    exact Int.eq_of_mul_eq_mul_right (Int.natCast_ne_zero.2 hone.ne') h
  · rintro rfl
    exact ⟨_, rfl, rfl⟩

/-- The value is the same as that in the field, also when both are left out. -/
theorem sameField_some_iff (v w : Value) : SameField (some v) (some w) ↔ same v w = true :=
  Option.rel_some_some

end Value

namespace DeprecationStatus

/-- Milliseconds are written as the text of their instant. -/
theorem exists_renderMillis?_of_stamp? {n : Int} {v : Option Value} (h : stamp? (.int n) = .ok v) :
    ∃ t, Timestamp.renderMillis? n = some t ∧ v = some (.text t) := by
  obtain ⟨t, ht, rfl⟩ := map_eq_ok_iff.1 h
  rcases Timestamp.render_int n with ⟨u, hu, hr⟩ | ⟨-, hr⟩
  · obtain rfl := Except.ok.inj (ht.symm.trans hr)
    exact ⟨t, hu, rfl⟩
  · exact absurd (hr.symm.trans ht) (reject_ne_ok _ _)

/-- Times that were read are written alike when they are the same. -/
theorem sameField_stamp?_iff {a b : Value} {v w : Option Value} (ha : Timestamp.IsRead a)
    (hb : Timestamp.IsRead b) (hv : stamp? a = .ok v) (hw : stamp? b = .ok w) :
    SameField v w ↔ same a b = true := by
  rcases ha with rfl | ⟨-, n, rfl, -⟩
  · obtain rfl := Except.ok.inj hv
    rcases hb with rfl | ⟨-, k, rfl, -⟩
    · obtain rfl := Except.ok.inj hw
      simp [null_same_iff]
    · obtain ⟨t, -, rfl⟩ := exists_renderMillis?_of_stamp? hw
      simp [null_same_iff]
  · obtain ⟨t, ht, rfl⟩ := exists_renderMillis?_of_stamp? hv
    rcases hb with rfl | ⟨-, k, rfl, -⟩
    · obtain rfl := Except.ok.inj hw
      simp [same_null_iff]
    · obtain ⟨u, hu, rfl⟩ := exists_renderMillis?_of_stamp? hw
      rw [sameField_some_iff, same_int_int_iff, same_text_text_iff]
      constructor
      · rintro rfl
        exact Timestamp.renderMillis?_injective ht hu
      · rintro rfl
        exact Option.some.inj (ht.symm.trans hu)

theorem label_injective {s t : Status} (h : s.label = t.label) : s = t := by
  cases s <;> cases t <;> first | rfl | exact absurd h (by decide)

/-- Replacements are written alike when they are the same. -/
theorem sameField_replacement_iff {a b : Option MachineTypeId} (ha : ∀ m ∈ a, m.WellFormed)
    (hb : ∀ m ∈ b, m.WellFormed) :
    SameField (a.map fun m => .text m.selfLink) (b.map fun m => .text m.selfLink) ↔ a = b := by
  cases a with
  | none => cases b <;> simp
  | some m =>
    cases b with
    | none => simp
    | some k =>
      rw [Option.map_some, Option.map_some, sameField_some_iff, same_text_text_iff, Option.some_inj]
      refine ⟨fun h => ?_, fun h => h ▸ rfl⟩
      have hm := MachineTypeId.ofUrl?_selfLink (ha m rfl)
      rw [h, MachineTypeId.ofUrl?_selfLink (hb k rfl)] at hm
      exact (Option.some.inj hm).symm

/-- The statuses agree in every part. -/
structure Agrees (d e : DeprecationStatus) : Prop where
  status : d.status = e.status
  replacement : d.replacement = e.replacement
  deprecated : same d.deprecated e.deprecated = true
  obsolete : same d.obsolete e.obsolete = true
  deleted : same d.deleted e.deleted = true

/-- **Deprecation statuses that were read are written alike when they agree.** -/
theorem same_toWire_iff {d e : DeprecationStatus} {v w : Value} (hd : d.IsRead) (he : e.IsRead)
    (hv : d.toWire = .ok v) (hw : e.toWire = .ok w) : same v w = true ↔ d.Agrees e := by
  obtain ⟨deprecated, obsolete, deleted, h₁, h₂, h₃, rfl⟩ := toWire_eq_ok_iff.1 hv
  obtain ⟨deprecated', obsolete', deleted', k₁, k₂, k₃, rfl⟩ := toWire_eq_ok_iff.1 hw
  have hstatus : same (.text d.status.label) (.text e.status.label) = true ↔
      d.status = e.status := by
    rw [same_text_text_iff]
    exact ⟨label_injective, congrArg _⟩
  have hkeys := keys_fields d deprecated obsolete deleted
  rw [same_present_iff (hkeys.trans (keys_fields e deprecated' obsolete' deleted').symm)
    (hkeys ▸ nodup_wireKeys)]
  simp only [fields, List.forall₂_cons, List.forall₂_nil_left_iff, and_true, sameField_some_iff,
    hstatus, sameField_replacement_iff hd.replacement he.replacement,
    sameField_stamp?_iff hd.deprecated he.deprecated h₁ k₁,
    sameField_stamp?_iff hd.obsolete he.obsolete h₂ k₂,
    sameField_stamp?_iff hd.deleted he.deleted h₃ k₃]
  constructor
  · rintro ⟨hs, hr, h₁, h₂, h₃⟩
    exact ⟨hs, hr, h₁, h₂, h₃⟩
  · intro h
    exact ⟨h.status, h.replacement, h.deprecated, h.obsolete, h.deleted⟩

end DeprecationStatus

namespace MachineType

/-- Ids that were read are written differently when they differ. -/
theorem sameField_id?_iff {a b : Value} {v w : Option Value} (ha : NumericId.IsRead a)
    (hb : NumericId.IsRead b) (hv : id? a = .ok v) (hw : id? b = .ok w) :
    SameField v w ↔ same a b = true := by
  rcases ha with rfl | ⟨n, rfl, hn⟩
  · obtain rfl := Except.ok.inj hv
    rcases hb with rfl | ⟨k, rfl, hk⟩
    · obtain rfl := Except.ok.inj hw
      simp [null_same_iff]
    · rw [id?, NumericId.encode_signedDecimal hk] at hw
      obtain rfl := Except.ok.inj hw
      simp [null_same_iff]
  · rw [id?, NumericId.encode_signedDecimal hn] at hv
    obtain rfl := Except.ok.inj hv
    rcases hb with rfl | ⟨k, rfl, hk⟩
    · obtain rfl := Except.ok.inj hw
      simp [same_null_iff]
    · rw [id?, NumericId.encode_signedDecimal hk] at hw
      obtain rfl := Except.ok.inj hw
      rw [sameField_some_iff, same_int_int_iff, same_text_text_iff]
      exact ⟨congrArg _, @Text.signedDecimal_injective n k⟩

/-- Scratch disks are written alike when their sizes are the same, one by one. -/
theorem same_disks_iff (sizes others : List Value) :
    same (disks sizes) (disks others) = true ↔
      List.Forall₂ (fun v w => same v w = true) sizes others := by
  have hdisk (v w : Value) : same (.object [("diskGb", v)]) (.object [("diskGb", w)]) = true ↔
      same v w = true := by
    rw [object_same_object_iff]
    simp
  rw [disks, disks, list_same_iff]
  simp [hdisk]

/-- The machine types agree in every attribute. -/
structure Agrees (a b : MachineType) : Prop where
  machineTypeId : a.machineTypeId = b.machineTypeId
  id : same a.id b.id = true
  creationTimestamp : same a.creationTimestamp b.creationTimestamp = true
  description : same a.description b.description = true
  cpus : same a.cpus b.cpus = true
  memoryMb : same a.memoryMb b.memoryMb = true
  scratchDisksSizeGb : Option.Rel (List.Forall₂ fun v w => same v w = true)
    a.scratchDisksSizeGb b.scratchDisksSizeGb
  maximumPersistentDisks : same a.maximumPersistentDisks b.maximumPersistentDisks = true
  maximumPersistentDisksSizeGb :
    same a.maximumPersistentDisksSizeGb b.maximumPersistentDisksSizeGb = true
  deprecationStatus : Option.Rel DeprecationStatus.Agrees a.deprecationStatus b.deprecationStatus

theorem sameField_disks_iff (a b : Option (List Value)) :
    SameField (a.map disks) (b.map disks) ↔
      Option.Rel (List.Forall₂ fun v w => same v w = true) a b := by
  cases a <;> cases b <;> simp [same_disks_iff]

theorem sameField_status?_iff {a b : Option DeprecationStatus} {v w : Option Value}
    (ha : ∀ d ∈ a, d.IsRead) (hb : ∀ d ∈ b, d.IsRead) (hv : status? a = .ok v)
    (hw : status? b = .ok w) : SameField v w ↔ Option.Rel DeprecationStatus.Agrees a b := by
  cases a with
  | none =>
    obtain rfl := Except.ok.inj hv
    cases b with
    | none =>
      obtain rfl := Except.ok.inj hw
      simp
    | some e =>
      obtain ⟨w, -, rfl⟩ := map_eq_ok_iff.1 hw
      simp
  | some d =>
    obtain ⟨v, hdv, rfl⟩ := map_eq_ok_iff.1 hv
    cases b with
    | none =>
      obtain rfl := Except.ok.inj hw
      simp
    | some e =>
      obtain ⟨w, hew, rfl⟩ := map_eq_ok_iff.1 hw
      rw [sameField_some_iff, Option.rel_some_some,
        DeprecationStatus.same_toWire_iff (ha d rfl) (hb e rfl) hdv hew]

/-- **Machine types that were read are written alike when they agree.** -/
theorem same_toWire_iff {a b : MachineType} {v w : Value} (ha : a.IsRead) (hb : b.IsRead)
    (hv : a.toWire = .ok v) (hw : b.toWire = .ok w) : same v w = true ↔ a.Agrees b := by
  obtain ⟨id, creation, deprecated, h₁, h₂, h₃, rfl⟩ := toWire_eq_ok_iff.1 hv
  obtain ⟨id', creation', deprecated', k₁, k₂, k₃, rfl⟩ := toWire_eq_ok_iff.1 hw
  rw [same_fields_iff]
  simp only [fields, List.forall₂_cons, List.forall₂_nil_left_iff, and_true, sameField_some_iff,
    same_text_text_iff, sameField_given?_iff, sameField_disks_iff,
    sameField_id?_iff ha.id hb.id h₁ k₁,
    DeprecationStatus.sameField_stamp?_iff ha.creationTimestamp hb.creationTimestamp h₂ k₂,
    sameField_status?_iff ha.deprecationStatus hb.deprecationStatus h₃ k₃]
  constructor
  · rintro ⟨hi, hc, hn, hdesc, hl, hcpu, hm, hs, hp, hg, hz, hd⟩
    exact ⟨MachineTypeId.eq_of_selfLink_eq hl hz hn, hi, hc, hdesc, hcpu, hm, hs, hp, hg, hd⟩
  · intro h
    have hn : a.name = b.name := congrArg MachineTypeId.machineType h.machineTypeId
    have hl := congrArg MachineTypeId.selfLink h.machineTypeId
    have hz := congrArg MachineTypeId.zone h.machineTypeId
    exact ⟨h.id, h.creationTimestamp, hn, h.description, hl, h.cpus, h.memoryMb,
      h.scratchDisksSizeGb, h.maximumPersistentDisks, h.maximumPersistentDisksSizeGb, hz,
      h.deprecationStatus⟩

/-- A machine type that has a wire form, made of JSON values. -/
structure Comparable (m : MachineType) : Prop where
  writable : ∃ w, m.toWire = .ok w
  description : IsJson m.description
  cpus : IsJson m.cpus
  memoryMb : IsJson m.memoryMb
  scratchDisksSizeGb : ∀ sizes ∈ m.scratchDisksSizeGb, ∀ size ∈ sizes, IsJson size
  maximumPersistentDisks : IsJson m.maximumPersistentDisks
  maximumPersistentDisksSizeGb : IsJson m.maximumPersistentDisksSizeGb

theorem isJson_some {v : Value} (h : IsJson v) : ∀ u ∈ some v, IsJson u :=
  fun _ hu => Option.some.inj hu ▸ h

theorem isJson_given? {v : Value} (h : IsJson v) : ∀ u ∈ v.given?, IsJson u :=
  fun _ hu => mem_given? hu ▸ h

theorem isJson_stamp? {millis : Value} {v : Option Value}
    (h : DeprecationStatus.stamp? millis = .ok v) : ∀ u ∈ v, IsJson u := by
  rintro u rfl
  rw [DeprecationStatus.stamp?] at h
  split_ifs at h
  · exact absurd (Except.ok.inj h) (by simp)
  · obtain ⟨t, -, he⟩ := map_eq_ok_iff.1 h
    exact Option.some.inj he ▸ .text t

theorem isJson_id? {id : Value} {v : Option Value} (h : id? id = .ok v) : ∀ u ∈ v, IsJson u := by
  rintro u rfl
  rw [id?] at h
  split_ifs at h
  · exact absurd (Except.ok.inj h) (by simp)
  · obtain ⟨n, -, he⟩ := map_eq_ok_iff.1 h
    exact Option.some.inj he ▸ .int n

theorem isJson_disks {sizes : List Value} (h : ∀ size ∈ sizes, IsJson size) :
    IsJson (disks sizes) := by
  refine .list fun disk hd => ?_
  obtain ⟨size, hs, rfl⟩ := List.mem_map.1 hd
  refine .object (by simp) ?_
  rintro f hf
  obtain rfl := List.mem_singleton.1 hf
  exact h size hs

theorem isJson_status? {status : Option DeprecationStatus} {v : Option Value}
    (h : status? status = .ok v) : ∀ u ∈ v, IsJson u := by
  rintro u rfl
  cases status with
  | none => exact absurd (Except.ok.inj h) (by simp)
  | some d =>
    obtain ⟨w, hw, he⟩ := map_eq_ok_iff.1 h
    obtain rfl := Option.some.inj he
    obtain ⟨deprecated, obsolete, deleted, h₁, h₂, h₃, rfl⟩ :=
      DeprecationStatus.toWire_eq_ok_iff.1 hw
    refine isJson_present (DeprecationStatus.keys_fields .. ▸ DeprecationStatus.nodup_wireKeys) ?_
    simp only [DeprecationStatus.fields, List.forall_mem_cons, List.not_mem_nil, false_imp_iff,
      implies_true, and_true]
    refine ⟨isJson_some (.text _), ?_, isJson_stamp? h₁, isJson_stamp? h₂, isJson_stamp? h₃⟩
    rintro u hu
    obtain ⟨m, -, rfl⟩ := Option.map_eq_some_iff.1 hu
    exact .text _

/-- The wire form is a JSON value. -/
theorem Comparable.isJson_toWire {m : MachineType} (h : m.Comparable) {w : Value}
    (hw : m.toWire = .ok w) : IsJson w := by
  obtain ⟨id, creation, deprecated, h₁, h₂, h₃, rfl⟩ := toWire_eq_ok_iff.1 hw
  refine isJson_present (keys_fields m id creation deprecated ▸ nodup_wireKeys) ?_
  simp only [fields, List.forall_mem_cons, List.not_mem_nil, false_imp_iff, implies_true, and_true]
  refine ⟨isJson_id? h₁, isJson_stamp? h₂, isJson_some (.text _), isJson_given? h.description,
    isJson_some (.text _), isJson_given? h.cpus, isJson_given? h.memoryMb, ?_,
    isJson_given? h.maximumPersistentDisks, isJson_given? h.maximumPersistentDisksSizeGb,
    isJson_some (.text _), isJson_status? h₃⟩
  rintro u hu
  obtain ⟨sizes, hs, rfl⟩ := Option.map_eq_some_iff.1 hu
  exact isJson_disks (h.scratchDisksSizeGb sizes hs)

theorem equals_eq {a b : MachineType} {v w : Value} (hv : a.toWire = .ok v)
    (hw : b.toWire = .ok w) : equals a b = .ok (same v w) := by
  rw [equals, hv, hw, ok_bind, ok_bind, pure_eq_ok]

theorem equals_self {a : MachineType} (ha : ∃ w, a.toWire = .ok w) : equals a a = .ok true := by
  obtain ⟨v, hv⟩ := ha
  rw [equals_eq hv hv, same_refl]

theorem equals_comm {a b : MachineType} (ha : a.Comparable) (hb : b.Comparable) :
    ∃ r, equals a b = .ok r ∧ equals b a = .ok r := by
  obtain ⟨v, hv⟩ := ha.writable
  obtain ⟨w, hw⟩ := hb.writable
  refine ⟨same v w, equals_eq hv hw, ?_⟩
  rw [equals_eq hw hv, same_comm (ha.isJson_toWire hv) (hb.isJson_toWire hw)]

theorem equals_trans {a b c : MachineType} (ha : a.Comparable) (hb : b.Comparable)
    (hc : c.Comparable) (hab : equals a b = .ok true) (hbc : equals b c = .ok true) :
    equals a c = .ok true := by
  obtain ⟨u, hu⟩ := ha.writable
  obtain ⟨v, hv⟩ := hb.writable
  obtain ⟨w, hw⟩ := hc.writable
  rw [equals_eq hu hv, Except.ok.injEq] at hab
  rw [equals_eq hv hw, Except.ok.injEq] at hbc
  rw [equals_eq hu hw, Except.ok.injEq]
  exact same_trans (ha.isJson_toWire hu) (hb.isJson_toWire hv) (hc.isJson_toWire hw) hab hbc

/-- Equal machine types have one identity: name, self link and zone are written. -/
theorem machineTypeId_eq_of_equals {a b : MachineType} (h : equals a b = .ok true) :
    a.machineTypeId = b.machineTypeId := by
  obtain ⟨v, hv, h⟩ := bind_eq_ok_iff.1 h
  obtain ⟨w, hw, h⟩ := bind_eq_ok_iff.1 h
  obtain ⟨id, creation, deprecated, -, -, -, rfl⟩ := toWire_eq_ok_iff.1 hv
  obtain ⟨id', creation', deprecated', -, -, -, rfl⟩ := toWire_eq_ok_iff.1 hw
  rw [pure_eq_ok, Except.ok.injEq, same_fields_iff] at h
  simp only [fields, List.forall₂_cons, sameField_some_iff, same_text_text_iff] at h
  obtain ⟨-, -, hn, -, hl, -, -, -, -, -, hz, -⟩ := h
  exact MachineTypeId.eq_of_selfLink_eq hl hz hn

theorem equals_iff_agrees {a b : MachineType} (ha : a.IsRead) (hb : b.IsRead)
    (hv : ∃ w, a.toWire = .ok w) (hw : ∃ w, b.toWire = .ok w) :
    equals a b = .ok true ↔ a.Agrees b := by
  obtain ⟨v, hv⟩ := hv
  obtain ⟨w, hw⟩ := hw
  rw [equals_eq hv hw, Except.ok.injEq, same_toWire_iff ha hb hv hw]

/-- **Equality is an equivalence that keeps identities apart**, and tells machine types
that were read apart by their attributes and by nothing else. -/
theorem equality_laws :
    (∀ a : MachineType, a.Comparable → equals a a = .ok true) ∧
      (∀ a b : MachineType, a.Comparable → b.Comparable →
        ∃ r, equals a b = .ok r ∧ equals b a = .ok r) ∧
      (∀ a b c : MachineType, a.Comparable → b.Comparable → c.Comparable →
        equals a b = .ok true → equals b c = .ok true → equals a c = .ok true) ∧
      (∀ a b : MachineType, a.Comparable → b.Comparable → equals a b = .ok true →
        a.machineTypeId = b.machineTypeId) ∧
      ∀ a b : MachineType, a.Comparable → b.Comparable → (∃ p, ofWire p = .ok a) →
        (∃ p, ofWire p = .ok b) → (equals a b = .ok true ↔ a.Agrees b) := by
  refine ⟨fun a ha => equals_self ha.writable, fun a b => equals_comm, fun a b c => equals_trans,
    fun a b _ _ => machineTypeId_eq_of_equals, ?_⟩
  rintro a b ha hb ⟨p, hp⟩ ⟨q, hq⟩
  exact equals_iff_agrees (isRead_of_ofWire hp) (isRead_of_ofWire hq) ha.writable hb.writable

/-- The wire form of a machine type with the given number of CPUs. -/
def payloadWithCpus (cpus : Value) : Value := .object [
  ("selfLink", .text "projects/p/zones/z/machineTypes/m"), ("guestCpus", cpus)]

/-- The machine type with the given number of CPUs. -/
def withCpus (cpus : Value) : MachineType where
  machineTypeId := ⟨"p", "z", "m"⟩
  cpus := cpus

/-- `1` and `true` are one number of CPUs, and `2` is another. -/
theorem equals_withCpus :
    equals (withCpus (.int 1)) (withCpus (.int 1)) = .ok true ∧
      equals (withCpus (.int 1)) (withCpus (.bool true)) = .ok true ∧
      (withCpus (.int 1)).machineTypeId = (withCpus (.bool true)).machineTypeId ∧
      ¬equals (withCpus (.int 1)) (withCpus (.int 2)) = .ok true := by
  obtain ⟨-, hcomm, htrans, hidentity, hagrees⟩ := equality_laws
  have hc (v : Value) (hv : IsJson v) : (withCpus v).Comparable :=
    ⟨⟨_, toWire_eq_ok_iff.2 ⟨none, none, none, rfl, rfl, rfl, rfl⟩⟩, .null, hv, .null, nofun, .null,
      .null⟩
  have h₁ := hc (.int 1) (.int 1)
  have h₂ := hc (.bool true) (.bool true)
  have h₃ := hc (.int 2) (.int 2)
  have hr₁ : ofWire (payloadWithCpus (.int 1)) = .ok (withCpus (.int 1)) := rfl
  have hr₂ : ofWire (payloadWithCpus (.bool true)) = .ok (withCpus (.bool true)) := rfl
  have hr₃ : ofWire (payloadWithCpus (.int 2)) = .ok (withCpus (.int 2)) := rfl
  have hnull := same_refl .null
  have hone : same (.int 1) (.bool true) = true := by
    rw [same_of_quantity rfl, sameQuantity_eq_true_iff]
    exact ⟨.finite Binary64.one, by rw [quantity?, Int.one_mul], rfl⟩
  have h : equals (withCpus (.int 1)) (withCpus (.bool true)) = .ok true :=
    (hagrees _ _ h₁ h₂ ⟨_, hr₁⟩ ⟨_, hr₂⟩).2
      ⟨rfl, hnull, hnull, hnull, hone, hnull, .none, hnull, hnull, .none⟩
  obtain ⟨r, hr, hr'⟩ := hcomm _ _ h₁ h₂
  obtain rfl := Except.ok.inj (hr.symm.trans h)
  refine ⟨htrans _ _ _ h₁ h₂ h₁ h hr', h, hidentity _ _ h₁ h₂ h, fun h => ?_⟩
  have hcpus := ((hagrees _ _ h₁ h₃ ⟨_, hr₁⟩ ⟨_, hr₃⟩).1 h).cpus
  exact absurd ((same_int_int_iff 1 2).1 hcpus) (by decide)

end MachineType
end MachineCatalog
