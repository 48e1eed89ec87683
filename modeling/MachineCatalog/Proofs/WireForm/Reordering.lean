/-
# Reading wire forms in another order

A wire form is read by key, so the order of its keys does not matter: with the entries of
mappings in other orders, at any depth, it is read as a machine type that agrees with what
was read before (`MachineType.ofWire_reordered`).  What has no others in it is the same in
every order (`Value.ReadsAtoms`); the values that are kept as they stand are reordered
with the wire form.
-/

import MachineCatalog.Proofs.Value.Reordering
import MachineCatalog.Proofs.WireForm.Equality

namespace MachineCatalog

open Value

namespace Value

/-- Whether a value has others in it. -/
def isCollection : Value → Bool
  | .list _ => true
  | .pair _ _ => true
  | .set _ => true
  | .mapping _ => true
  | .knot _ _ => true
  | _ => false

theorem Reordered.eq_of_isCollection {v w : Value} (h : Reordered v w)
    (hv : v.isCollection = false) : w = v := by
  cases h with
  | refl => rfl
  | _ => exact absurd hv (by simp [isCollection])

/-- What is read of a value is read of that value alone, unless it has others in it. -/
def ReadsAtoms {α : Type} (read : Value → Except Failure α) : Prop :=
  ∀ v a, read v = .ok a → v.isCollection = false

theorem ReadsAtoms.reordered {α : Type} {read : Value → Except Failure α} (h : ReadsAtoms read)
    {v w : Value} {a : α} (hv : read v = .ok a) (hr : Reordered v w) : read w = .ok a := by
  rwa [hr.eq_of_isCollection (h v a hv)]

theorem readsAtoms_ofUrl : ReadsAtoms MachineTypeId.ofUrl := by
  intro v m h
  obtain ⟨s, rfl, -⟩ := MachineTypeId.exists_text_of_ofUrl h
  rfl

theorem readsAtoms_identityOf : ReadsAtoms MachineType.identityOf :=
  fun v m h => readsAtoms_ofUrl v m (MachineType.identityOf_eq_ok_iff.1 h)

theorem readsAtoms_optional {read : Value → Except Failure Value} (h : ReadsAtoms read) :
    ReadsAtoms (MachineType.optional read) := by
  intro v a hv
  rw [MachineType.optional] at hv
  split_ifs at hv with hnull
  · rw [(isNull_iff v).1 hnull]
    rfl
  · exact h v a hv

theorem readsAtoms_map {α β : Type} {read : Value → Except Failure α} (h : ReadsAtoms read)
    (f : α → β) : ReadsAtoms fun v => (read v).map f := by
  intro v b hv
  obtain ⟨a, ha, -⟩ := map_eq_ok_iff.1 hv
  exact h v a ha

theorem readsAtoms_decode : ReadsAtoms NumericId.decode := by
  intro v s h
  obtain ⟨n, hn, -⟩ := NumericId.decode_eq_ok_iff.1 h
  cases v with
  | text s => rfl
  | int n => rfl
  | _ => exact absurd hn (reject_ne_ok _ _)

theorem readsAtoms_parse : ReadsAtoms Timestamp.parse := by
  intro v n h
  cases v with
  | text s => rfl
  | _ => exact absurd h (reject_ne_ok _ _)

theorem readsAtoms_statusOf : ReadsAtoms DeprecationStatus.statusOf := by
  intro v d h
  cases v with
  | text s => rfl
  | _ => exact absurd h (reject_ne_ok _ _)

/-- Reading a value that counts, and giving a default for one that does not. -/
theorem ReadsAtoms.reordered_counts {α : Type} {read : Value → Except Failure α}
    (h : ReadsAtoms read) {default : Except Failure α} {v w : Value} {a : α}
    (hv : (if v.counts then read v else default) = .ok a) (hr : Reordered v w) :
    (if w.counts then read w else default) = .ok a := by
  rw [← hr.counts_eq]
  split_ifs at hv ⊢
  · exact h.reordered hv hr
  · exact hv

end Value

namespace DeprecationStatus

theorem readsAs_reordered {es fs : List (Value × Value)} {d : DeprecationStatus}
    (h : ReadsAs es d) (hr : ∀ key, Option.Rel Reordered (get? es key) (get? fs key)) :
    ReadsAs fs d := by
  have hmillis := readsAtoms_map readsAtoms_parse Value.int
  have hlink := readsAtoms_map readsAtoms_ofUrl (some : MachineTypeId → Option MachineTypeId)
  exact {
    status := readsAtoms_statusOf.reordered h.status (reordered_get (hr _))
    replacement := hlink.reordered_counts h.replacement (reordered_get (hr _))
    deprecated := hmillis.reordered_counts h.deprecated (reordered_get (hr _))
    obsolete := hmillis.reordered_counts h.obsolete (reordered_get (hr _))
    deleted := hmillis.reordered_counts h.deleted (reordered_get (hr _)) }

/-- A deprecation status is read alike in every order. -/
theorem ofWire_reordered {v w : Value} {d : DeprecationStatus} (h : ofWire v = .ok d)
    (hr : Reordered v w) : ofWire w = .ok d := by
  obtain ⟨es, hes, hread⟩ := ofWire_eq_ok_iff.1 h
  obtain ⟨fs, hfs, hget⟩ := hr.get?_entries hes
  exact ofWire_eq_ok_iff.2 ⟨fs, hfs, readsAs_reordered hread hget⟩

end DeprecationStatus

namespace MachineType

theorem statusOf_reordered {v w : Value} {status : Option DeprecationStatus}
    (h : statusOf v = .ok status) (hr : Reordered v w) : statusOf w = .ok status := by
  rw [statusOf, ← hr.isNull_eq]
  rw [statusOf] at h
  split_ifs at h ⊢
  · exact h
  · obtain ⟨d, hd, he⟩ := map_eq_ok_iff.1 h
    exact map_eq_ok_iff.2 ⟨d, DeprecationStatus.ofWire_reordered hd hr, he⟩

/-- A number that may be a text: only what is no text is kept as it stands. -/
theorem integerOf_reordered {v w x : Value} (h : integerOf v = .ok x) (hr : Reordered v w) :
    ∃ y, integerOf w = .ok y ∧ Reordered x y := by
  cases hr with
  | refl => exact ⟨x, h, .refl x⟩
  | list hl hxy => exact ⟨_, rfl, Except.ok.inj h ▸ .list hl hxy⟩
  | set hl hxy => exact ⟨_, rfl, Except.ok.inj h ▸ .set hl hxy⟩
  | pair ha hb => exact ⟨_, rfl, Except.ok.inj h ▸ .pair ha hb⟩
  | mapping hl hk hv hs => exact ⟨_, rfl, Except.ok.inj h ▸ .mapping hl hk hv hs⟩
  | knot hb => exact ⟨_, rfl, Except.ok.inj h ▸ .knot hb⟩

theorem diskSizes_reordered {xs ys sizes : List Value} (hr : List.Forall₂ Reordered xs ys) (i : Nat)
    (h : diskSizes i xs = .ok sizes) :
    ∃ others, diskSizes i ys = .ok others ∧ List.Forall₂ Reordered sizes others := by
  induction hr generalizing i sizes with
  | nil => exact ⟨[], rfl, Except.ok.inj h ▸ .nil⟩
  | cons hxy _ ih =>
    rw [diskSizes] at h
    split at h
    · rename_i es hes
      obtain ⟨more, hmore, h⟩ := bind_eq_ok_iff.1 h
      obtain ⟨others, hothers, hall⟩ := ih (i + 1) hmore
      obtain ⟨fs, hfs, hget⟩ := hxy.get?_entries hes
      refine ⟨get fs "diskGb" :: others, ?_, Except.ok.inj h ▸ .cons (reordered_get (hget _)) hall⟩
      rw [diskSizes, hfs, hothers]
      rfl
    · exact absurd h (reject_ne_ok _ _)

theorem scratchSizes_reordered {v w : Value} {sizes : Option (List Value)}
    (h : scratchSizes v = .ok sizes) (hr : Reordered v w) : ∃ others, scratchSizes w = .ok others ∧
      Option.Rel (List.Forall₂ Reordered) sizes others := by
  rw [scratchSizes] at h
  split_ifs at h with hnull
  · refine ⟨none, ?_, Except.ok.inj h ▸ .none⟩
    rw [scratchSizes, ← hr.isNull_eq, if_pos hnull]
  · split at h
    · rename_i xs hxs
      obtain ⟨ys, hys, hall⟩ := hr.items? hxs
      obtain ⟨sizes, hsizes, rfl⟩ := map_eq_ok_iff.1 h
      obtain ⟨others, hothers, hrel⟩ := diskSizes_reordered hall 0 hsizes
      refine ⟨some others, ?_, .some hrel⟩
      rw [scratchSizes, ← hr.isNull_eq, if_neg hnull, hys]
      exact map_eq_ok_iff.2 ⟨others, hothers, rfl⟩
    · exact absurd h (reject_ne_ok _ _)

/-- What agrees with sizes agrees with them reordered. -/
theorem rel_sizes_right {sizes others more : Option (List Value)}
    (h : Option.Rel (List.Forall₂ fun v w => same v w = true) sizes others)
    (hr : Option.Rel (List.Forall₂ Reordered) others more) :
    Option.Rel (List.Forall₂ fun v w => same v w = true) sizes more := by
  cases h with
  | none =>
    cases hr
    exact .none
  | some h =>
    cases hr with
    | some hr => exact .some (forall₂_comp (fun hs hr => hr.same_right hs) h hr)

/-- **Fields in another order are read as a machine type that agrees with the same ones.** -/
theorem readsAs_reordered {es fs : List (Value × Value)} {a : MachineType} (h : ReadsAs es a)
    (hr : ∀ key, Option.Rel Reordered (get? es key) (get? fs key)) :
    ∃ b, ReadsAs fs b ∧ ∀ x : MachineType, x.Agrees a → x.Agrees b := by
  have hget (key : Text) : Reordered (get es key) (get fs key) := reordered_get (hr key)
  have hid := (readsAtoms_optional (readsAtoms_map readsAtoms_decode _)).reordered h.id (hget _)
  have htime := (readsAtoms_optional (readsAtoms_map readsAtoms_parse _)).reordered
    h.creationTimestamp (hget _)
  obtain ⟨sizes, hsizes, hrelsizes⟩ := scratchSizes_reordered h.scratchDisks (hget _)
  obtain ⟨size, hsize, hrelsize⟩ := integerOf_reordered h.maximumPersistentDisksSizeGb (hget _)
  have hdescription := h.description ▸ hget "description"
  have hcpus := h.cpus ▸ hget "guestCpus"
  have hmemory := h.memoryMb ▸ hget "memoryMb"
  have hdisks := h.maximumPersistentDisks ▸ hget "maximumPersistentDisks"
  refine ⟨{
    machineTypeId := a.machineTypeId
    id := a.id
    creationTimestamp := a.creationTimestamp
    description := get fs "description"
    cpus := get fs "guestCpus"
    memoryMb := get fs "memoryMb"
    scratchDisksSizeGb := sizes
    maximumPersistentDisks := get fs "maximumPersistentDisks"
    maximumPersistentDisksSizeGb := size
    deprecationStatus := a.deprecationStatus }, ?_, fun x hx => ?_⟩
  · exact {
      identity := readsAtoms_identityOf.reordered h.identity (hget _)
      id := hid
      creationTimestamp := htime
      description := rfl
      cpus := rfl
      memoryMb := rfl
      scratchDisks := hsizes
      maximumPersistentDisks := rfl
      maximumPersistentDisksSizeGb := hsize
      deprecationStatus := statusOf_reordered h.deprecationStatus (hget _) }
  · exact { hx with
      description := hdescription.same_right hx.description
      cpus := hcpus.same_right hx.cpus
      memoryMb := hmemory.same_right hx.memoryMb
      scratchDisksSizeGb := rel_sizes_right hx.scratchDisksSizeGb hrelsizes
      maximumPersistentDisks := hdisks.same_right hx.maximumPersistentDisks
      maximumPersistentDisksSizeGb := hrelsize.same_right hx.maximumPersistentDisksSizeGb }

/-- **A wire form in another order is read as a machine type that agrees with the same ones.** -/
theorem ofWire_reordered {p q : Value} {a : MachineType} (h : ofWire p = .ok a)
    (hr : Reordered p q) :
    ∃ b, ofWire q = .ok b ∧ ∀ x : MachineType, x.Agrees a → x.Agrees b := by
  obtain ⟨es, hes, hread⟩ := ofWire_eq_ok_iff.1 h
  obtain ⟨fs, hfs, hget⟩ := hr.get?_entries hes
  obtain ⟨b, hb, hagrees⟩ := readsAs_reordered hread hget
  exact ⟨b, ofWire_eq_ok_iff.2 ⟨fs, hfs, hb⟩, hagrees⟩

end MachineType
end MachineCatalog
