/-
# Rejected wire forms

Every rejection that reading a wire form ends with can be reported: its message
shows no integer that is too long to be written (`MachineType.reportable_ofWire`).
Each part of the wire form is read by a function for which that holds, and
combining them keeps it.
-/

import MachineCatalog.Proofs.WireForm.Reading

namespace MachineCatalog

theorem MachineTypeId.reportable_ofUrl (url : Value) : Reportable (ofUrl url) := by
  unfold ofUrl
  split
  · split
    · exact reportable_ok _
    · exact reportable_reject _
  · exact reportable_reject _

theorem NumericId.reportable_encode (id : Value) : Reportable (encode id) := by
  unfold encode
  split
  · exact reportable_ok _
  · split
    · exact reportable_reject _
    · split
      · exact reportable_abort _
      · exact reportable_ok _
  · exact reportable_reject _

theorem NumericId.reportable_decode (id : Value) : Reportable (decode id) := by
  refine (reportable_encode id).bind fun n => ?_
  dsimp only
  split
  · exact reportable_abort _
  · exact reportable_ok _

theorem Timestamp.reportable_parse (v : Value) : Reportable (parse v) := by
  unfold parse
  split
  · split
    · split
      · exact reportable_reject _
      · exact reportable_ok _
    · exact reportable_reject _
  · exact reportable_reject _

namespace DeprecationStatus

theorem reportable_statusOf (state : Value) : Reportable (statusOf state) := by
  unfold statusOf
  split
  · exact reportable_reject _
  · split
    · exact reportable_ok _
    · exact reportable_reject _
  · exact reportable_reject _

theorem reportable_replacementOf (link : Value) : Reportable (replacementOf link) := by
  unfold replacementOf
  split
  · exact (MachineTypeId.reportable_ofUrl link).map some
  · exact reportable_ok none

theorem reportable_millisOf (v : Value) : Reportable (millisOf v) := by
  unfold millisOf
  split
  · exact (Timestamp.reportable_parse v).map _
  · exact reportable_ok _

theorem reportable_ofWire (payload : Value) : Reportable (ofWire payload) := by
  cases hf : payload.entries? with
  | none =>
    rw [ofWire, hf]
    exact reportable_reject _
  | some fields =>
    rw [ofWire_eq_ofFields hf, ofFields]
    refine (reportable_statusOf _).bind fun status => ?_
    refine (reportable_replacementOf _).bind fun replacement => ?_
    refine (reportable_millisOf _).bind fun deprecated => ?_
    refine (reportable_millisOf _).bind fun obsolete => ?_
    exact (reportable_millisOf _).bind fun deleted => reportable_ok _

end DeprecationStatus

namespace MachineType

theorem reportable_identityOf (link : Value) : Reportable (identityOf link) := by
  unfold identityOf
  split
  · exact reportable_reject _
  · exact MachineTypeId.reportable_ofUrl link

theorem reportable_optional {read : Value → Except Failure Value} (h : ∀ v, Reportable (read v))
    (v : Value) : Reportable (optional read v) := by
  unfold optional
  split
  · exact reportable_ok _
  · exact h v

theorem reportable_statusOf (v : Value) : Reportable (statusOf v) := by
  unfold statusOf
  split
  · exact reportable_ok none
  · exact (DeprecationStatus.reportable_ofWire v).map some

theorem reportable_diskSizes (i : Nat) (disks : List Value) : Reportable (diskSizes i disks) := by
  induction disks generalizing i with
  | nil => exact reportable_ok []
  | cons disk disks ih =>
    rw [diskSizes]
    split
    · exact (ih (i + 1)).bind fun sizes => reportable_ok _
    · exact reportable_reject _

theorem reportable_scratchSizes (disks : Value) : Reportable (scratchSizes disks) := by
  unfold scratchSizes
  split
  · exact reportable_ok none
  · split
    · exact (reportable_diskSizes 0 _).map some
    · exact reportable_reject _

theorem reportable_integerOf (v : Value) : Reportable (integerOf v) := by
  unfold integerOf
  split
  · split
    · exact reportable_ok _
    · exact reportable_reject _
  · exact reportable_ok _

/-- **A wire form is rejected with a message that can be written.** -/
theorem reportable_ofWire (payload : Value) : Reportable (ofWire payload) := by
  rw [ofWire]
  split
  · rw [ofFields_eq]
    refine (reportable_identityOf _).bind fun machineTypeId => ?_
    refine (reportable_optional (fun v => (NumericId.reportable_decode v).map .text) _).bind
      fun id => ?_
    refine (reportable_optional (fun v => (Timestamp.reportable_parse v).map .int) _).bind
      fun creation => ?_
    refine (reportable_scratchSizes _).bind fun sizes => ?_
    refine (reportable_integerOf _).bind fun size => ?_
    exact (reportable_statusOf _).bind fun status => reportable_ok _
  · exact reportable_reject _

end MachineType
end MachineCatalog
