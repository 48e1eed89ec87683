/-
# The fields of the wire form

The wire form has a fixed list of keys.  Three of its fields are encoded and may
fail: the id, the timestamps, and the deprecation status, which has a wire form of
its own.  The others are there or left out.  So a wire form is written when the
encoded fields are, and is made of its fields (`MachineType.toWire_eq_ok_iff`,
`DeprecationStatus.toWire_eq_ok_iff`).
-/

import MachineCatalog.MachineType.Wire
import MachineCatalog.Proofs.Failure
import MachineCatalog.Proofs.Value.Fields

namespace MachineCatalog

open Value

namespace DeprecationStatus

/-- The keys of the wire form. -/
def wireKeys : List Text := ["state", "replacement", "deprecated", "obsolete", "deleted"]

theorem nodup_wireKeys : wireKeys.Nodup := by decide

/-- The field of a timestamp. -/
def stamp? (millis : Value) : Except Failure (Option Value) :=
  if millis.isNull then .ok none else (Timestamp.render millis).map fun t => some (.text t)

/-- The fields of the wire form around its timestamps. -/
def fields (d : DeprecationStatus) (deprecated obsolete deleted : Option Value) :
    List (Text × Option Value) := [
  ("state", some (.text d.status.label)),
  ("replacement", d.replacement.map fun m => .text m.selfLink),
  ("deprecated", deprecated),
  ("obsolete", obsolete),
  ("deleted", deleted)]

theorem keys_fields (d : DeprecationStatus) (deprecated obsolete deleted : Option Value) :
    (d.fields deprecated obsolete deleted).map Prod.fst = wireKeys := rfl

theorem timestampField_eq (key : Text) (millis : Value) :
    timestampField key millis = (stamp? millis).map fun v => present [(key, v)] := by
  rw [timestampField, stamp?]
  split_ifs
  · rfl
  · cases Timestamp.render millis <;> rfl

theorem toWire_eq (d : DeprecationStatus) : d.toWire = do
    let deprecated ← stamp? d.deprecated
    let obsolete ← stamp? d.obsolete
    let deleted ← stamp? d.deleted
    return .object (present (d.fields deprecated obsolete deleted)) := by
  simp only [toWire, timestampField_eq]
  cases stamp? d.deprecated with
  | error e => rfl
  | ok deprecated =>
    cases stamp? d.obsolete with
    | error e => rfl
    | ok obsolete =>
      cases stamp? d.deleted with
      | error e => rfl
      | ok deleted =>
        simp only [map_ok, ok_bind, fields, present_cons, present_nil, List.append_nil,
          List.append_assoc]
        cases d.replacement <;> rfl

/-- A deprecation status is written when its timestamps are. -/
theorem toWire_eq_ok_iff {d : DeprecationStatus} {w : Value} :
    d.toWire = .ok w ↔ ∃ deprecated obsolete deleted, stamp? d.deprecated = .ok deprecated ∧
      stamp? d.obsolete = .ok obsolete ∧ stamp? d.deleted = .ok deleted ∧
      w = .object (present (d.fields deprecated obsolete deleted)) := by
  rw [toWire_eq]
  constructor
  · intro h
    obtain ⟨deprecated, h₁, h⟩ := bind_eq_ok_iff.1 h
    obtain ⟨obsolete, h₂, h⟩ := bind_eq_ok_iff.1 h
    obtain ⟨deleted, h₃, h⟩ := bind_eq_ok_iff.1 h
    exact ⟨deprecated, obsolete, deleted, h₁, h₂, h₃, (Except.ok.inj h).symm⟩
  · rintro ⟨deprecated, obsolete, deleted, h₁, h₂, h₃, rfl⟩
    rw [h₁, h₂, h₃]
    rfl

end DeprecationStatus

namespace MachineType

/-- The keys of the wire form. -/
def wireKeys : List Text := [
  "id", "creationTimestamp", "name", "description", "selfLink", "guestCpus", "memoryMb",
  "scratchDisks", "maximumPersistentDisks", "maximumPersistentDisksSizeGb", "zone", "deprecated"]

theorem nodup_wireKeys : wireKeys.Nodup := by decide

/-- The field of an id. -/
def id? (id : Value) : Except Failure (Option Value) :=
  if id.isNull then .ok none else (NumericId.encode id).map fun n => some (.int n)

/-- The field of a deprecation status. -/
def status? : Option DeprecationStatus → Except Failure (Option Value)
  | none => .ok none
  | some d => d.toWire.map some

/-- The objects of scratch disks. -/
def disks (sizes : List Value) : Value := .list (sizes.map fun size => .object [("diskGb", size)])

/-- The fields of the wire form around those that are encoded. -/
def fields (m : MachineType) (id creation deprecated : Option Value) :
    List (Text × Option Value) := [
  ("id", id),
  ("creationTimestamp", creation),
  ("name", some (.text m.name)),
  ("description", m.description.given?),
  ("selfLink", some (.text m.machineTypeId.selfLink)),
  ("guestCpus", m.cpus.given?),
  ("memoryMb", m.memoryMb.given?),
  ("scratchDisks", m.scratchDisksSizeGb.map disks),
  ("maximumPersistentDisks", m.maximumPersistentDisks.given?),
  ("maximumPersistentDisksSizeGb", m.maximumPersistentDisksSizeGb.given?),
  ("zone", some (.text m.machineTypeId.zone)),
  ("deprecated", deprecated)]

theorem keys_fields (m : MachineType) (id creation deprecated : Option Value) :
    (m.fields id creation deprecated).map Prod.fst = wireKeys := rfl

/-- Two wire forms are the same field by field. -/
theorem same_fields_iff (a b : MachineType) (id creation deprecated id' creation' deprecated' :
    Option Value) :
    same (.object (present (a.fields id creation deprecated)))
        (.object (present (b.fields id' creation' deprecated'))) = true ↔
      List.Forall₂ (fun f g => SameField f.2 g.2) (a.fields id creation deprecated)
        (b.fields id' creation' deprecated') := by
  have hkeys := keys_fields a id creation deprecated
  have hkeys' := keys_fields b id' creation' deprecated'
  exact same_present_iff (hkeys.trans hkeys'.symm) (hkeys ▸ nodup_wireKeys)

theorem idField_eq (id : Value) : idField id = (id? id).map fun v => present [("id", v)] := by
  rw [idField, id?]
  split_ifs
  · rfl
  · cases NumericId.encode id <;> rfl

theorem deprecatedField_eq (d : Option DeprecationStatus) :
    deprecatedField d = (status? d).map fun v => present [("deprecated", v)] := by
  cases d with
  | none => rfl
  | some d =>
    rw [deprecatedField, status?]
    cases d.toWire <;> rfl

theorem plainField_eq (key : Text) (v : Value) : plainField key v = present [(key, v.given?)] := by
  rw [plainField, given?]
  split_ifs <;> rfl

theorem scratchField_eq (sizes : Option (List Value)) :
    scratchField sizes = present [("scratchDisks", sizes.map disks)] := by
  cases sizes <;> rfl

/-- **The wire form is made of its fields**, once those that are encoded are known. -/
theorem toWire_eq (m : MachineType) : m.toWire = do
    let id ← id? m.id
    let creation ← DeprecationStatus.stamp? m.creationTimestamp
    let deprecated ← status? m.deprecationStatus
    return .object (present (m.fields id creation deprecated)) := by
  simp only [toWire, wireFields, idField_eq, DeprecationStatus.timestampField_eq,
    deprecatedField_eq, plainField_eq, scratchField_eq]
  cases id? m.id with
  | error e => rfl
  | ok id =>
    cases DeprecationStatus.stamp? m.creationTimestamp with
    | error e => rfl
    | ok creation =>
      cases status? m.deprecationStatus with
      | error e => rfl
      | ok deprecated =>
        simp only [map_ok, ok_bind, pure_eq_ok, fields, present_cons, present_nil, List.append_nil,
          List.append_assoc]
        rfl

/-- A machine type is written when its encoded fields are. -/
theorem toWire_eq_ok_iff {m : MachineType} {w : Value} :
    m.toWire = .ok w ↔ ∃ id creation deprecated, id? m.id = .ok id ∧
      DeprecationStatus.stamp? m.creationTimestamp = .ok creation ∧
      status? m.deprecationStatus = .ok deprecated ∧
      w = .object (present (m.fields id creation deprecated)) := by
  rw [toWire_eq]
  constructor
  · intro h
    obtain ⟨id, h₁, h⟩ := bind_eq_ok_iff.1 h
    obtain ⟨creation, h₂, h⟩ := bind_eq_ok_iff.1 h
    obtain ⟨deprecated, h₃, h⟩ := bind_eq_ok_iff.1 h
    exact ⟨id, creation, deprecated, h₁, h₂, h₃, (Except.ok.inj h).symm⟩
  · rintro ⟨id, creation, deprecated, h₁, h₂, h₃, rfl⟩
    rw [h₁, h₂, h₃]
    rfl

end MachineType
end MachineCatalog
