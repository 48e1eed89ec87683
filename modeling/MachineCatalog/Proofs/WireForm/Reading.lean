/-
# Reading the wire form

A wire form is read field by field: the machine type has the identity of the self
link, the decoded id, times and sizes, and every other value as it stands
(`MachineType.ofFields_eq`).  So it is read when each field is
(`MachineType.ofWire_eq_ok_iff`), and the same holds for the deprecation status in
it (`DeprecationStatus.ofWire_eq_ok_iff`).
-/

import MachineCatalog.MachineType.Wire
import MachineCatalog.Proofs.Failure

namespace MachineCatalog

namespace DeprecationStatus

/-- The replacement that a field names; one that does not count is none. -/
def replacementOf (link : Value) : Except Failure (Option MachineTypeId) :=
  if link.counts then (MachineTypeId.ofUrl link).map some else .ok none

/-- A replacement that is read is the one that the link names. -/
theorem ofUrl_of_mem_replacementOf {link : Value} {replacement : Option MachineTypeId}
    (h : replacementOf link = .ok replacement) :
    ∀ m ∈ replacement, MachineTypeId.ofUrl link = .ok m := by
  rintro m hm
  rw [replacementOf] at h
  split_ifs at h
  · obtain ⟨m', hu, he⟩ := map_eq_ok_iff.1 h
    obtain rfl : m' = m := Option.some.inj (he.trans hm)
    exact hu
  · exact absurd ((Except.ok.inj h).trans hm) (by simp)

/-- The deprecation status with the given fields in wire form. -/
def ofFields (fields : List (Value × Value)) : Except Failure DeprecationStatus := do
  let status ← statusOf (Value.get fields "state")
  let replacement ← replacementOf (Value.get fields "replacement")
  let deprecated ← millisOf (Value.get fields "deprecated")
  let obsolete ← millisOf (Value.get fields "obsolete")
  let deleted ← millisOf (Value.get fields "deleted")
  return ⟨status, replacement, deprecated, obsolete, deleted⟩

theorem ofWire_eq_ofFields {payload : Value} {fields : List (Value × Value)}
    (h : payload.entries? = some fields) : ofWire payload = ofFields fields := by
  simp only [ofWire, h, ofFields, replacementOf, ite_bind]

/-- The fields read as the parts of `d`. -/
structure ReadsAs (fields : List (Value × Value)) (d : DeprecationStatus) : Prop where
  status : statusOf (Value.get fields "state") = .ok d.status
  replacement : replacementOf (Value.get fields "replacement") = .ok d.replacement
  deprecated : millisOf (Value.get fields "deprecated") = .ok d.deprecated
  obsolete : millisOf (Value.get fields "obsolete") = .ok d.obsolete
  deleted : millisOf (Value.get fields "deleted") = .ok d.deleted

theorem ofFields_eq_ok_iff {fields : List (Value × Value)} {d : DeprecationStatus} :
    ofFields fields = .ok d ↔ ReadsAs fields d := by
  constructor
  · intro h
    obtain ⟨status, hs, h⟩ := bind_eq_ok_iff.1 h
    obtain ⟨replacement, hr, h⟩ := bind_eq_ok_iff.1 h
    obtain ⟨deprecated, h₁, h⟩ := bind_eq_ok_iff.1 h
    obtain ⟨obsolete, h₂, h⟩ := bind_eq_ok_iff.1 h
    obtain ⟨deleted, h₃, h⟩ := bind_eq_ok_iff.1 h
    obtain rfl := Except.ok.inj h
    exact ⟨hs, hr, h₁, h₂, h₃⟩
  · intro h
    rw [ofFields, h.status, h.replacement, h.deprecated, h.obsolete, h.deleted]
    rfl

/-- **A deprecation status is read when its fields are.** -/
theorem ofWire_eq_ok_iff {payload : Value} {d : DeprecationStatus} :
    ofWire payload = .ok d ↔ ∃ fields, payload.entries? = some fields ∧ ReadsAs fields d := by
  cases hf : payload.entries? with
  | none => simp [ofWire, hf]
  | some fields => simp [ofWire_eq_ofFields hf, ofFields_eq_ok_iff]

end DeprecationStatus

namespace MachineType

/-- The identity that a field names, which must be there. -/
def identityOf (link : Value) : Except Failure MachineTypeId :=
  if link.isNull then reject (.missingField "selfLink" "MachineType wire form")
  else MachineTypeId.ofUrl link

/-- The id that a field holds. -/
def idOf : Value → Except Failure Value := optional fun v => (NumericId.decode v).map .text

/-- The time that a field holds. -/
def timeOf : Value → Except Failure Value := optional fun v => (Timestamp.parse v).map .int

/-- The deprecation status that a field holds. -/
def statusOf (status : Value) : Except Failure (Option DeprecationStatus) :=
  if status.isNull then .ok none else (DeprecationStatus.ofWire status).map some

/-- The sizes that are read are those of disks in the list. -/
theorem exists_disk_of_mem_diskSizes {i : Nat} {disks sizes : List Value}
    (h : diskSizes i disks = .ok sizes) : ∀ size ∈ sizes, ∃ disk ∈ disks, ∃ fields,
      disk.entries? = some fields ∧ size = Value.get fields "diskGb" := by
  induction disks generalizing i sizes with
  | nil =>
    obtain rfl := Except.ok.inj h
    exact List.forall_mem_nil _
  | cons disk disks ih =>
    rw [diskSizes] at h
    split at h
    · rename_i fields hf
      obtain ⟨more, hmore, h⟩ := bind_eq_ok_iff.1 h
      obtain rfl := Except.ok.inj h
      refine List.forall_mem_cons.2 ⟨⟨disk, List.mem_cons_self, fields, hf, rfl⟩, ?_⟩
      intro size hs
      obtain ⟨d, hd, hsize⟩ := ih hmore size hs
      exact ⟨d, List.mem_cons_of_mem disk hd, hsize⟩
    · exact absurd h (reject_ne_ok _ _)

/-- A deprecation status that is read is the one of the field. -/
theorem ofWire_of_mem_statusOf {v : Value} {status : Option DeprecationStatus}
    (h : statusOf v = .ok status) : ∀ d ∈ status, DeprecationStatus.ofWire v = .ok d := by
  rintro d hd
  rw [statusOf] at h
  split_ifs at h
  · exact absurd ((Except.ok.inj h).trans hd) (by simp)
  · obtain ⟨d', hw, he⟩ := map_eq_ok_iff.1 h
    obtain rfl : d' = d := Option.some.inj (he.trans hd)
    exact hw

/-- **Fields are read one after the other.** -/
theorem ofFields_eq (fields : List (Value × Value)) : ofFields fields = do
    let machineTypeId ← identityOf (Value.get fields "selfLink")
    let id ← idOf (Value.get fields "id")
    let creationTimestamp ← timeOf (Value.get fields "creationTimestamp")
    let scratchDisksSizeGb ← scratchSizes (Value.get fields "scratchDisks")
    let maximumPersistentDisksSizeGb ← integerOf (Value.get fields "maximumPersistentDisksSizeGb")
    let deprecationStatus ← statusOf (Value.get fields "deprecated")
    return {
      machineTypeId, id, creationTimestamp, scratchDisksSizeGb, maximumPersistentDisksSizeGb,
      deprecationStatus
      description := Value.get fields "description"
      cpus := Value.get fields "guestCpus"
      memoryMb := Value.get fields "memoryMb"
      maximumPersistentDisks := Value.get fields "maximumPersistentDisks" } := by
  simp only [ofFields, identityOf, idOf, timeOf, statusOf, ite_bind, reject_bind]

/-- The fields read as the attributes of `m`. -/
structure ReadsAs (fields : List (Value × Value)) (m : MachineType) : Prop where
  identity : identityOf (Value.get fields "selfLink") = .ok m.machineTypeId
  id : idOf (Value.get fields "id") = .ok m.id
  creationTimestamp : timeOf (Value.get fields "creationTimestamp") = .ok m.creationTimestamp
  description : Value.get fields "description" = m.description
  cpus : Value.get fields "guestCpus" = m.cpus
  memoryMb : Value.get fields "memoryMb" = m.memoryMb
  scratchDisks : scratchSizes (Value.get fields "scratchDisks") = .ok m.scratchDisksSizeGb
  maximumPersistentDisks : Value.get fields "maximumPersistentDisks" = m.maximumPersistentDisks
  maximumPersistentDisksSizeGb : integerOf (Value.get fields "maximumPersistentDisksSizeGb") =
    .ok m.maximumPersistentDisksSizeGb
  deprecationStatus : statusOf (Value.get fields "deprecated") = .ok m.deprecationStatus

theorem ofFields_eq_ok_iff {fields : List (Value × Value)} {m : MachineType} :
    ofFields fields = .ok m ↔ ReadsAs fields m := by
  rw [ofFields_eq]
  constructor
  · intro h
    obtain ⟨identity, hi, h⟩ := bind_eq_ok_iff.1 h
    obtain ⟨id, hn, h⟩ := bind_eq_ok_iff.1 h
    obtain ⟨creation, hc, h⟩ := bind_eq_ok_iff.1 h
    obtain ⟨sizes, hs, h⟩ := bind_eq_ok_iff.1 h
    obtain ⟨size, hp, h⟩ := bind_eq_ok_iff.1 h
    obtain ⟨status, hd, h⟩ := bind_eq_ok_iff.1 h
    obtain rfl := Except.ok.inj h
    exact ⟨hi, hn, hc, rfl, rfl, rfl, hs, rfl, hp, hd⟩
  · intro h
    rw [h.identity, h.id, h.creationTimestamp, h.scratchDisks, h.maximumPersistentDisksSizeGb,
      h.deprecationStatus, h.description, h.cpus, h.memoryMb, h.maximumPersistentDisks]
    rfl

/-- **A machine type is read when its fields are.** -/
theorem ofWire_eq_ok_iff {payload : Value} {m : MachineType} :
    ofWire payload = .ok m ↔ ∃ fields, payload.entries? = some fields ∧ ReadsAs fields m := by
  rw [ofWire]
  cases payload.entries? with
  | none => simp
  | some fields => simp [ofFields_eq_ok_iff]

theorem identityOf_eq_ok_iff {link : Value} {m : MachineTypeId} :
    identityOf link = .ok m ↔ MachineTypeId.ofUrl link = .ok m := by
  rw [identityOf]
  split_ifs with h
  · cases link <;> simp_all [Value.isNull, MachineTypeId.ofUrl]
  · rfl

end MachineType
end MachineCatalog
