/-
# What reading a wire form can end with

Reading a wire form that holds no long integer gives a machine type or a rejection,
whatever its fields hold, with one exception.  An id that is a decimal text of more
than `Text.decimalDigitLimit` digits has the form of an id, and so it is not
rejected; but it is not converted either, and reading ends with a defect
(`MachineType.ofWire_of_hasLongId`).  With any other id the reading is handled
(`MachineType.handled_ofWire`).

Each part of the wire form is read by a function for which that holds, and
combining them keeps it.
-/

import MachineCatalog.Proofs.Numeral
import MachineCatalog.Proofs.Timestamp.Bounds
import MachineCatalog.Proofs.Value.Integers
import MachineCatalog.Proofs.WireForm.Reading

namespace MachineCatalog

open Value

/-- A rejection that shows a value without long integers can be reported. -/
theorem Rejection.isReportable_of_value? {why : Rejection} {v : Value} (hv : why.value? = some v)
    (h : v.holdsLongInteger = false) : why.IsReportable := by
  rw [IsReportable, hv]
  exact h

theorem Rejection.isReportable_of_none {why : Rejection} (h : why.value? = none) :
    why.IsReportable := by
  rw [IsReportable, h]
  rfl

theorem MachineTypeId.handled_ofUrl {url : Value} (h : url.holdsLongInteger = false) :
    Handled (ofUrl url) := by
  unfold ofUrl
  split
  · split
    · exact handled_ok _
    · exact (Rejection.isReportable_of_value? rfl h).handled_reject
  · exact (Rejection.isReportable_of_value? rfl h).handled_reject

theorem Timestamp.handled_parse {v : Value} (h : v.holdsLongInteger = false) :
    Handled (parse v) := by
  rw [parse_eq]
  split
  · split
    · exact handled_ok _
    · exact (Rejection.isReportable_of_value? rfl h).handled_reject
  · exact (Rejection.isReportable_of_value? rfl h).handled_reject

namespace NumericId

/-- The value is a decimal text with more digits than are converted. -/
def IsLong (id : Value) : Prop := ∃ x : Numeral, id = .text x.text ∧ ¬x.IsShort

theorem decode_of_isLong {id : Value} (h : IsLong id) : decode id = abort .longInteger := by
  obtain ⟨x, rfl, hx⟩ := h
  rw [decode, encode_text_of_not_isShort hx]
  rfl

theorem handled_decode_text {s : Text} (h : ¬IsLong (.text s)) : Handled (decode (.text s)) := by
  cases hp : decimalParts? s.chars with
  | none =>
    have hs : Rejection.IsReportable (.malformedId (.text s)) :=
      Rejection.isReportable_of_value? rfl rfl
    rw [decode, encode, hp]
    exact hs.handled_reject.bind fun n hn => absurd hn (reject_ne_ok _ _)
  | some parts =>
    obtain ⟨x, rfl, -⟩ := exists_numeral_of_decimalParts? hp
    have hx : x.IsShort := Decidable.not_not.1 fun hx => h ⟨x, rfl, hx⟩
    rw [decode_eq_ok_iff.2 ⟨x.value, encode_text hx, hx.isLongInteger_value, rfl⟩]
    exact handled_ok _

theorem handled_decode {id : Value} (h : id.holdsLongInteger = false) (hl : ¬IsLong id) :
    Handled (decode id) := by
  cases id with
  | text s => exact handled_decode_text hl
  | int n =>
    rw [decode_eq_ok_iff.2 ⟨n, rfl, by rwa [holdsLongInteger] at h, rfl⟩]
    exact handled_ok _
  | _ =>
    refine Handled.bind ?_ fun n hn => absurd hn (reject_ne_ok _ _)
    exact Rejection.IsReportable.handled_reject (Rejection.isReportable_of_value? rfl h)

end NumericId

namespace DeprecationStatus

theorem handled_statusOf {state : Value} (h : state.holdsLongInteger = false) :
    Handled (statusOf state) := by
  unfold statusOf
  split
  · exact (Rejection.isReportable_of_none rfl).handled_reject
  · split
    · exact handled_ok _
    · exact (Rejection.isReportable_of_value? rfl h).handled_reject
  · exact (Rejection.isReportable_of_value? rfl h).handled_reject

theorem handled_replacementOf {link : Value} (h : link.holdsLongInteger = false) :
    Handled (replacementOf link) := by
  unfold replacementOf
  split
  · exact (MachineTypeId.handled_ofUrl h).map some
  · exact handled_ok none

theorem handled_millisOf {v : Value} (h : v.holdsLongInteger = false) : Handled (millisOf v) := by
  unfold millisOf
  split
  · exact (Timestamp.handled_parse h).map _
  · exact handled_ok _

theorem handled_ofWire {payload : Value} (h : payload.holdsLongInteger = false) :
    Handled (ofWire payload) := by
  cases hf : payload.entries? with
  | none =>
    rw [ofWire, hf]
    exact (Rejection.isReportable_of_none rfl).handled_reject
  | some fields =>
    have hget := holdsLongInteger_get h hf
    rw [ofWire_eq_ofFields hf, ofFields]
    refine (handled_statusOf (hget _)).bind fun status _ => ?_
    refine (handled_replacementOf (hget _)).bind fun replacement _ => ?_
    refine (handled_millisOf (hget _)).bind fun deprecated _ => ?_
    refine (handled_millisOf (hget _)).bind fun obsolete _ => ?_
    exact (handled_millisOf (hget _)).bind fun deleted _ => handled_ok _

end DeprecationStatus

namespace MachineType

theorem handled_identityOf {link : Value} (h : link.holdsLongInteger = false) :
    Handled (identityOf link) := by
  unfold identityOf
  split
  · exact (Rejection.isReportable_of_none rfl).handled_reject
  · exact MachineTypeId.handled_ofUrl h

theorem handled_optional {read : Value → Except Failure Value} {v : Value}
    (h : Handled (read v)) : Handled (optional read v) := by
  unfold optional
  split
  · exact handled_ok _
  · exact h

theorem handled_statusOf {v : Value} (h : v.holdsLongInteger = false) : Handled (statusOf v) := by
  unfold statusOf
  split
  · exact handled_ok none
  · exact (DeprecationStatus.handled_ofWire h).map some

theorem handled_diskSizes (i : Nat) (disks : List Value) : Handled (diskSizes i disks) := by
  induction disks generalizing i with
  | nil => exact handled_ok []
  | cons disk disks ih =>
    rw [diskSizes]
    split
    · exact (ih (i + 1)).bind fun sizes _ => handled_ok _
    · exact (Rejection.isReportable_of_none rfl).handled_reject

theorem handled_scratchSizes (disks : Value) : Handled (scratchSizes disks) := by
  unfold scratchSizes
  split
  · exact handled_ok none
  · split
    · exact (handled_diskSizes 0 _).map some
    · exact (Rejection.isReportable_of_none rfl).handled_reject

theorem handled_integerOf (v : Value) : Handled (integerOf v) := by
  unfold integerOf
  split
  · split
    · exact handled_ok _
    · exact (Rejection.isReportable_of_none rfl).handled_reject
  · exact handled_ok _

/-- The self link of the wire form names a machine type, and its id is a decimal text with
more digits than are converted. -/
def HasLongId (payload : Value) : Prop :=
  ∃ fields m, payload.entries? = some fields ∧
    MachineTypeId.ofUrl (Value.get fields "selfLink") = .ok m ∧
    NumericId.IsLong (Value.get fields "id")

/-- Such a wire form is neither read nor rejected. -/
theorem ofWire_of_hasLongId {payload : Value} (h : HasLongId payload) :
    ofWire payload = abort .longInteger := by
  obtain ⟨fields, m, hf, hm, hid⟩ := h
  have hnull : (Value.get fields "id").isNull = false := by
    obtain ⟨x, hx, -⟩ := hid
    rw [hx]
    rfl
  have hidOf : idOf (Value.get fields "id") = abort .longInteger := by
    rw [idOf, optional, hnull, if_neg Bool.false_ne_true, NumericId.decode_of_isLong hid]
    rfl
  simp only [ofWire, hf]
  rw [ofFields_eq, identityOf_eq_ok_iff.2 hm, hidOf]
  rfl

/-- Every other wire form is read or rejected. -/
theorem handled_ofWire {payload : Value} (h : payload.holdsLongInteger = false)
    (hid : ¬HasLongId payload) : Handled (ofWire payload) := by
  cases hf : payload.entries? with
  | none =>
    rw [ofWire, hf]
    exact (Rejection.isReportable_of_none rfl).handled_reject
  | some fields =>
    have hget := holdsLongInteger_get h hf
    simp only [ofWire, hf]
    rw [ofFields_eq]
    refine (handled_identityOf (hget _)).bind fun identity hm => ?_
    -- the id is looked at once the self link has been read
    have hshort : ¬NumericId.IsLong (Value.get fields "id") :=
      fun hl => hid ⟨fields, identity, hf, identityOf_eq_ok_iff.1 hm, hl⟩
    refine (handled_optional ((NumericId.handled_decode (hget _) hshort).map _)).bind fun id _ => ?_
    refine (handled_optional ((Timestamp.handled_parse (hget _)).map _)).bind fun creation _ => ?_
    refine (handled_scratchSizes _).bind fun sizes _ => ?_
    refine (handled_integerOf _).bind fun size _ => ?_
    exact (handled_statusOf (hget _)).bind fun status _ => handled_ok _

/-- **Only a long id escapes.**  A wire form without long integers is read or rejected,
unless its id is a decimal text with more digits than are converted. -/
theorem read_or_rejected_iff {payload : Value} (h : payload.holdsLongInteger = false) :
    ((∃ m, ofWire payload = .ok m) ∨ ∃ why, ofWire payload = .error (.rejected why)) ↔
      ¬HasLongId payload := by
  refine ⟨fun hr hid => ?_, fun hid => (handled_ofWire h hid).cases⟩
  rw [ofWire_of_hasLongId hid] at hr
  rcases hr with ⟨m, hm⟩ | ⟨why, hw⟩
  · exact absurd hm nofun
  · exact absurd hw nofun

/-- The wire form of a machine type with the given id. -/
def payloadWithId (id : Value) : Value := .object [
  ("selfLink", .text "projects/p/zones/z/machineTypes/m"), ("id", id)]

/-- As many nines as make a decimal text too long to be converted. -/
def manyNines : Numeral :=
  ⟨.absent, List.replicate (Text.decimalDigitLimit + 1) (Fin.last 9), List.cons_ne_nil _ _⟩

theorem read_or_rejected_iff_payloadWithId :
    (payloadWithId (.list [.text "7"])).holdsLongInteger = false ∧
      ¬HasLongId (payloadWithId (.list [.text "7"])) := by
  have h : (payloadWithId (.list [.text "7"])).holdsLongInteger = false := rfl
  exact ⟨h, (read_or_rejected_iff h).1 (.inr ⟨.malformedId (.list [.text "7"]), rfl⟩)⟩

/-- **A long id is neither read nor rejected.** -/
theorem ofWire_manyNines : (payloadWithId (.text manyNines.text)).holdsLongInteger = false ∧
    ofWire (payloadWithId (.text manyNines.text)) = .error (.defect .longInteger) := by
  refine ⟨rfl, ofWire_of_hasLongId ⟨_, ⟨"p", "z", "m"⟩, rfl, rfl, manyNines, rfl, ?_⟩⟩
  rw [Numeral.IsShort, manyNines, List.length_replicate]
  omega

end MachineType
end MachineCatalog
