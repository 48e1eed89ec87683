/-
# What catalogs can show

A catalog in Markdown or HTML is made unless a value that it shows holds an integer that is too
long to be written (`Report.requireShown_bind_eq_ok_iff`).  A machine type that was read from a
wire form without such integers has no such value (`Report.isShown_of_ofWire`).
-/

import MachineCatalog.Proofs.Value.Integers
import MachineCatalog.Proofs.WireForm.Documents
import MachineCatalog.Report.Labels

namespace MachineCatalog
namespace Report

open Value

/-- Whatever catalogs show of the machine type can be written. -/
def IsShown (m : MachineType) : Prop :=
  ∀ v ∈ m.maximumPersistentDisksSizeGb :: shownValues m, v.holdsLongInteger = false

instance (m : MachineType) : Decidable (IsShown m) := by unfold IsShown; infer_instance

/-- A catalog is made unless a value that it shows holds an integer that is too long. -/
theorem requireShown_bind_eq_ok_iff {ms : List MachineType} {page text : Text} :
    (requireShown (ms.flatMap fun m => m.maximumPersistentDisksSizeGb :: shownValues m) >>=
      fun _ => .ok page) = .ok text ↔ (∀ m ∈ ms, IsShown m) ∧ text = page := by
  have hshown : (ms.flatMap fun m => m.maximumPersistentDisksSizeGb :: shownValues m).any
      Value.holdsLongInteger = false ↔ ∀ m ∈ ms, IsShown m := by
    simp only [List.any_eq_false, List.mem_flatMap, Bool.not_eq_true]
    constructor
    · intro h m hm v hv
      exact h v ⟨m, hm, hv⟩
    · rintro h v ⟨m, hm, hv⟩
      exact h m hm v hv
  rw [← hshown, requireShown]
  cases (ms.flatMap fun m => m.maximumPersistentDisksSizeGb :: shownValues m).any
      Value.holdsLongInteger with
  | true =>
    constructor
    · intro h
      cases h
    · rintro ⟨h, -⟩
      cases h
  | false =>
    constructor
    · intro h
      exact ⟨rfl, (Except.ok.inj h).symm⟩
    · rintro ⟨-, rfl⟩
      rfl

theorem holdsLongInteger_of_diskSizes {i : Nat} {items sizes : List Value}
    (hitems : ∀ v ∈ items, v.holdsLongInteger = false)
    (h : MachineType.diskSizes i items = .ok sizes) :
    ∀ size ∈ sizes, size.holdsLongInteger = false := by
  intro size hs
  obtain ⟨disk, hd, fields, hf, rfl⟩ := MachineType.exists_disk_of_mem_diskSizes h size hs
  exact holdsLongInteger_get (hitems disk hd) hf _

theorem holdsLongInteger_of_scratchSizes {v : Value} {read : Option (List Value)}
    (hv : v.holdsLongInteger = false) (h : MachineType.scratchSizes v = .ok read) :
    ∀ size ∈ read.getD [], size.holdsLongInteger = false := by
  rw [MachineType.scratchSizes] at h
  split_ifs at h
  · obtain rfl := Except.ok.inj h
    exact List.forall_mem_nil _
  · split at h
    · rename_i items hi
      obtain ⟨sizes, hd, rfl⟩ := map_eq_ok_iff.1 h
      exact holdsLongInteger_of_diskSizes (holdsLongInteger_of_mem_items hv hi) hd
    · exact absurd h (reject_ne_ok _ _)

theorem holdsLongInteger_of_integerOf {v size : Value} (hv : v.holdsLongInteger = false)
    (h : MachineType.integerOf v = .ok size) : size.holdsLongInteger = false := by
  unfold MachineType.integerOf at h
  split at h
  · split at h
    · rename_i hn
      obtain rfl := Except.ok.inj h
      exact Text.isLongInteger_of_readInteger? hn
    · exact absurd h (reject_ne_ok _ _)
  · obtain rfl := Except.ok.inj h
    exact hv

/-- **What was read from a wire form without long integers can be shown.** -/
theorem isShown_of_ofWire {payload : Value} {m : MachineType}
    (hp : payload.holdsLongInteger = false) (h : MachineType.ofWire payload = .ok m) :
    IsShown m := by
  obtain ⟨fields, hf, hread⟩ := MachineType.ofWire_eq_ok_iff.1 h
  have hget := holdsLongInteger_get hp hf
  have hsize := holdsLongInteger_of_integerOf (hget _) hread.maximumPersistentDisksSizeGb
  have hdisks := holdsLongInteger_of_scratchSizes (hget _) hread.scratchDisks
  rw [IsShown, shownValues, List.forall_mem_cons, List.forall_mem_append]
  simp only [List.forall_mem_cons]
  exact ⟨hsize, ⟨hread.cpus ▸ hget _, hread.memoryMb ▸ hget _,
    hread.maximumPersistentDisks ▸ hget _, List.forall_mem_nil _⟩, hdisks⟩

end Report
end MachineCatalog
