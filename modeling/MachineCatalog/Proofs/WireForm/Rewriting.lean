/-
# Writing what was read

What comes out of the reader is in order (`MachineType.isRead_of_ofWire`): the
names of the identities are segments, the id is a canonical decimal text, and a
time is one that a text writes.  All of it can be written again but a time outside
the years 1 to 9999, to which an offset from UTC can lead.  So a machine type that
was read is written when its times are in those years, and otherwise the first
that is not is rejected (`MachineType.exists_toWire_iff_of_ofWire`).
-/

import MachineCatalog.Proofs.Numeral
import MachineCatalog.Proofs.SelfLink
import MachineCatalog.Proofs.Timestamp.Bounds
import MachineCatalog.Proofs.WireForm.Fields
import MachineCatalog.Proofs.WireForm.Reading

namespace MachineCatalog

open Value

namespace Timestamp

/-- The milliseconds of a time outside the years 1 to 9999. -/
def outside? : Value → Option Int
  | .int n => if InRange n then none else some n
  | _ => none

theorem outside?_eq_none_iff {v : Value} : outside? v = none ↔ ∀ n, v = .int n → InRange n := by
  cases v with
  | int n =>
    rw [outside?]
    split_ifs with h
    · exact ⟨fun _ k hk => Value.int.inj hk ▸ h, fun _ => rfl⟩
    · exact ⟨nofun, fun hn => absurd (hn n rfl) h⟩
  | _ => exact ⟨fun _ => nofun, fun _ => rfl⟩

/-- The computation succeeds when no time is outside the years 1 to 9999, and otherwise
rejects the given one. -/
def Writes {α : Type} (outside : Option Int) (x : Except Failure α) : Prop :=
  match outside with
  | none => ∃ a, x = .ok a
  | some n => x = .error (.rejected (.timestampRange (.int n)))

/-- Of two steps the first rejects first. -/
theorem Writes.bind {α β : Type} {first second : Option Int} {x : Except Failure α}
    {f : α → Except Failure β} (hx : Writes first x) (hf : ∀ a, Writes second (f a)) :
    Writes (first.or second) (x >>= f) := by
  cases first with
  | none =>
    obtain ⟨a, rfl⟩ := hx
    rw [ok_bind, Option.none_or]
    exact hf a
  | some n =>
    obtain rfl := hx
    rfl

theorem Writes.map {α β : Type} {outside : Option Int} {x : Except Failure α}
    (hx : Writes outside x) (f : α → β) : Writes outside (x.map f) := by
  cases outside with
  | none =>
    obtain ⟨a, rfl⟩ := hx
    exact ⟨f a, rfl⟩
  | some n =>
    obtain rfl := hx
    rfl

theorem writes_ok {α : Type} (a : α) : Writes none (.ok a) := ⟨a, rfl⟩

/-- **A time that was read is written when it is in the years 1 to 9999**, and is
rejected when it is not. -/
theorem writes_stamp? {v : Value} (h : IsRead v) :
    Writes (outside? v) (DeprecationStatus.stamp? v) := by
  rcases h with rfl | ⟨t, n, rfl, ht⟩
  · exact writes_ok none
  · rw [DeprecationStatus.stamp?, if_neg (by simp [isNull]), outside?]
    refine Writes.map ?_ _
    split_ifs with hn
    · obtain ⟨date, time, he, -⟩ := exists_renderMillis? hn
      exact ⟨stamp date time, by simp only [render, he]⟩
    · have hs : (Rejection.timestampRange (.int n)).IsReportable := by
        simpa [Rejection.IsReportable, Rejection.value?, holdsLongInteger] using
          isLongInteger_of_millis? ht
      simp only [render, renderMillis?_eq_none hn]
      exact hs.reject_eq

end Timestamp

namespace DeprecationStatus

/-- The times, in the order in which they are written. -/
def times (d : DeprecationStatus) : List Value := [d.deprecated, d.obsolete, d.deleted]

/-- A status as the reader gives it. -/
structure IsRead (d : DeprecationStatus) : Prop where
  replacement : ∀ m ∈ d.replacement, m.WellFormed
  deprecated : Timestamp.IsRead d.deprecated
  obsolete : Timestamp.IsRead d.obsolete
  deleted : Timestamp.IsRead d.deleted

theorem isRead_of_millisOf {v millis : Value} (h : millisOf v = .ok millis) :
    Timestamp.IsRead millis := by
  rw [millisOf] at h
  split_ifs at h
  · obtain ⟨n, hn, rfl⟩ := map_eq_ok_iff.1 h
    exact Timestamp.isRead_of_parse hn
  · exact .inl (Except.ok.inj h).symm

theorem wellFormed_of_replacementOf {link : Value} {replacement : Option MachineTypeId}
    (h : replacementOf link = .ok replacement) : ∀ m ∈ replacement, m.WellFormed :=
  fun m hm => MachineTypeId.wellFormed_of_ofUrl (ofUrl_of_mem_replacementOf h m hm)

theorem isRead_of_ofWire {payload : Value} {d : DeprecationStatus} (h : ofWire payload = .ok d) :
    d.IsRead := by
  obtain ⟨fields, -, hf⟩ := ofWire_eq_ok_iff.1 h
  exact ⟨wellFormed_of_replacementOf hf.replacement, isRead_of_millisOf hf.deprecated,
    isRead_of_millisOf hf.obsolete, isRead_of_millisOf hf.deleted⟩

/-- A status that was read is written, or the first of its times outside the years 1
to 9999 is rejected. -/
theorem writes_toWire {d : DeprecationStatus} (h : d.IsRead) :
    Timestamp.Writes (d.times.findSome? Timestamp.outside?) d.toWire := by
  have hfirst : d.times.findSome? Timestamp.outside? =
      (Timestamp.outside? d.deprecated).or ((Timestamp.outside? d.obsolete).or
        ((Timestamp.outside? d.deleted).or none)) := by
    simp only [times, List.findSome?_cons, List.findSome?_nil]
    cases Timestamp.outside? d.deprecated <;> cases Timestamp.outside? d.obsolete <;>
      cases Timestamp.outside? d.deleted <;> rfl
  rw [hfirst, toWire_eq]
  refine (Timestamp.writes_stamp? h.deprecated).bind fun deprecated => ?_
  refine (Timestamp.writes_stamp? h.obsolete).bind fun obsolete => ?_
  exact (Timestamp.writes_stamp? h.deleted).bind fun deleted => Timestamp.writes_ok _

end DeprecationStatus

namespace NumericId

/-- An id as the reader gives it. -/
def IsRead (id : Value) : Prop :=
  id = .null ∨ ∃ n, id = .text (Text.signedDecimal n) ∧ isLongInteger n = false

end NumericId

namespace MachineType

/-- The times, in the order in which they are written. -/
def times (m : MachineType) : List Value :=
  m.creationTimestamp :: m.deprecationStatus.elim [] DeprecationStatus.times

/-- A machine type as the reader gives it. -/
structure IsRead (m : MachineType) : Prop where
  identity : m.machineTypeId.WellFormed
  id : NumericId.IsRead m.id
  creationTimestamp : Timestamp.IsRead m.creationTimestamp
  deprecationStatus : ∀ d ∈ m.deprecationStatus, d.IsRead

theorem isRead_of_idOf {v id : Value} (h : idOf v = .ok id) : NumericId.IsRead id := by
  rw [idOf, optional] at h
  split_ifs at h
  · exact .inl (Except.ok.inj h).symm
  · obtain ⟨s, hs, rfl⟩ := map_eq_ok_iff.1 h
    obtain ⟨n, -, hl, rfl⟩ := NumericId.decode_eq_ok_iff.1 hs
    exact .inr ⟨n, rfl, hl⟩

theorem isRead_of_timeOf {v millis : Value} (h : timeOf v = .ok millis) :
    Timestamp.IsRead millis := by
  rw [timeOf, optional] at h
  split_ifs at h
  · exact .inl (Except.ok.inj h).symm
  · obtain ⟨n, hn, rfl⟩ := map_eq_ok_iff.1 h
    exact Timestamp.isRead_of_parse hn

theorem isRead_of_statusOf {v : Value} {status : Option DeprecationStatus}
    (h : statusOf v = .ok status) : ∀ d ∈ status, d.IsRead :=
  fun d hd => DeprecationStatus.isRead_of_ofWire (ofWire_of_mem_statusOf h d hd)

/-- **Reading gives what the wire form can carry**, but for times. -/
theorem isRead_of_ofWire {payload : Value} {m : MachineType} (h : ofWire payload = .ok m) :
    m.IsRead := by
  obtain ⟨fields, -, hf⟩ := ofWire_eq_ok_iff.1 h
  exact ⟨MachineTypeId.wellFormed_of_ofUrl (identityOf_eq_ok_iff.1 hf.identity),
    isRead_of_idOf hf.id, isRead_of_timeOf hf.creationTimestamp,
    isRead_of_statusOf hf.deprecationStatus⟩

theorem exists_id?_of_isRead {id : Value} (h : NumericId.IsRead id) : ∃ v, id? id = .ok v := by
  rcases h with rfl | ⟨n, rfl, hn⟩
  · exact ⟨none, rfl⟩
  · exact ⟨some (.int n), by rw [id?, NumericId.encode_signedDecimal hn]; rfl⟩

theorem writes_status? {status : Option DeprecationStatus} (h : ∀ d ∈ status, d.IsRead) :
    Timestamp.Writes ((status.elim [] DeprecationStatus.times).findSome? Timestamp.outside?)
      (status? status) := by
  cases status with
  | none => exact Timestamp.writes_ok none
  | some d => exact (DeprecationStatus.writes_toWire (h d rfl)).map some

/-- A machine type that was read is written, or the first of its times outside the
years 1 to 9999 is rejected. -/
theorem writes_toWire {m : MachineType} (h : m.IsRead) :
    Timestamp.Writes (m.times.findSome? Timestamp.outside?) m.toWire := by
  have hfirst : m.times.findSome? Timestamp.outside? = (Timestamp.outside? m.creationTimestamp).or
      (((m.deprecationStatus.elim [] DeprecationStatus.times).findSome? Timestamp.outside?).or
        none) := by
    rw [times, List.findSome?_cons, Option.or_none]
    cases Timestamp.outside? m.creationTimestamp <;> rfl
  obtain ⟨id, hid⟩ := exists_id?_of_isRead h.id
  rw [hfirst, toWire_eq, hid, ok_bind]
  refine (Timestamp.writes_stamp? h.creationTimestamp).bind fun creation => ?_
  exact (writes_status? h.deprecationStatus).bind fun deprecated => Timestamp.writes_ok _

/-- **What was read is written exactly when its times are in the years 1 to 9999.**
Otherwise the first that is not is rejected. -/
theorem exists_toWire_iff_of_ofWire {payload : Value} {m : MachineType}
    (h : ofWire payload = .ok m) :
    ((∃ w, m.toWire = .ok w) ↔ ∀ n, .int n ∈ m.times → Timestamp.InRange n) ∧
      ∀ failure, m.toWire = .error failure →
        ∃ n, m.times.findSome? Timestamp.outside? = some n ∧
          failure = .rejected (.timestampRange (.int n)) := by
  have hnone : m.times.findSome? Timestamp.outside? = none ↔
      ∀ n, .int n ∈ m.times → Timestamp.InRange n := by
    simp only [List.findSome?_eq_none_iff, Timestamp.outside?_eq_none_iff]
    exact ⟨fun hall n hn => hall _ hn n rfl, fun hall v hv n he => hall n (he ▸ hv)⟩
  rw [← hnone]
  have hwrites := writes_toWire (isRead_of_ofWire h)
  cases hfirst : m.times.findSome? Timestamp.outside? with
  | none =>
    rw [hfirst] at hwrites
    obtain ⟨w, hw⟩ := hwrites
    rw [hw]
    exact ⟨by simp, nofun⟩
  | some n =>
    rw [hfirst] at hwrites
    have hw : m.toWire = .error (.rejected (.timestampRange (.int n))) := hwrites
    rw [hw]
    exact ⟨by simp, fun failure he => ⟨n, rfl, (Except.error.inj he).symm⟩⟩

/-- The wire form of a machine type that is set up and deleted at given times. -/
def payloadAt (creation deleted : Text) : Value := .object [
  ("selfLink", .text "projects/p/zones/z/machineTypes/m"),
  ("creationTimestamp", .text creation),
  ("deprecated", .object [("state", .text "DELETED"), ("deleted", .text deleted)])]

/-- The machine type that is set up and deleted at given times. -/
def lastingFrom (creation deleted : Int) : MachineType where
  machineTypeId := ⟨"p", "z", "m"⟩
  creationTimestamp := .int creation
  deprecationStatus := some ⟨.deleted, none, .null, .null, .int deleted⟩

/-- Times at both ends of the calendar are written. -/
theorem exists_toWire_payloadAt_ends :
    ofWire (payloadAt "0001-01-01T00:00:00Z" "9999-12-31T23:59:59.999999Z") =
        .ok (lastingFrom (-62135596800000) 253402300799999) ∧
      ∃ w, (lastingFrom (-62135596800000) 253402300799999).toWire = .ok w := by
  have h : ofWire (payloadAt "0001-01-01T00:00:00Z" "9999-12-31T23:59:59.999999Z") =
      .ok (lastingFrom (-62135596800000) 253402300799999) := rfl
  refine ⟨h, (exists_toWire_iff_of_ofWire h).1.2 ?_⟩
  rintro n hn
  simp only [times, lastingFrom, Option.elim_some, DeprecationStatus.times, List.mem_cons,
    Value.int.injEq, reduceCtorEq, List.not_mem_nil, or_false, false_or] at hn
  rcases hn with rfl | rfl
  · decide
  · decide

/-- **An offset leads out of the calendar**: the last second of the year 9999 an hour
west of UTC is read, and cannot be written. -/
theorem toWire_payloadAt_offset :
    ofWire (payloadAt "9999-12-31T23:59:59-01:00" "2000-01-01T00:00:00Z") =
        .ok (lastingFrom 253402304399000 946684800000) ∧
      (lastingFrom 253402304399000 946684800000).toWire =
        .error (.rejected (.timestampRange (.int 253402304399000))) := by
  have h : ofWire (payloadAt "9999-12-31T23:59:59-01:00" "2000-01-01T00:00:00Z") =
      .ok (lastingFrom 253402304399000 946684800000) := rfl
  have hfirst : (lastingFrom 253402304399000 946684800000).times.findSome? Timestamp.outside? =
      some 253402304399000 := by decide
  have hwrites := writes_toWire (isRead_of_ofWire h)
  rw [hfirst] at hwrites
  exact ⟨h, hwrites⟩

end MachineType
end MachineCatalog
