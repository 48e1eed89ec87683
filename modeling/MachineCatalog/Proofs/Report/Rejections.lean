/-
# What reports reject

A report may fail to show a value or to write it, but Markdown, HTML
(`Report.unrejecting_requireShown_bind`) and the table (`Report.Table.unrejecting_render`) reject
nothing, nor does the selection of machine types (`Report.unrejecting_select`) or the writing of
JSON (`Json.unrejecting_write`).

A JSON catalog holds wire forms.  Of machine types that were read, these reject a time outside
the years 1 to 9999, the first that is met, and nothing else
(`Report.Json.render_eq_rejected_iff`).
-/

import MachineCatalog.Proofs.WireForm.Rewriting
import MachineCatalog.Report.Json
import MachineCatalog.Report.Labels
import MachineCatalog.Report.Table

namespace MachineCatalog

namespace Json

theorem unrejecting_intText (n : Int) : Unrejecting (intText n) := by
  unfold intText
  split
  · exact unrejecting_abort _
  · exact unrejecting_ok _

theorem unrejecting_keyText (k : Value) : Unrejecting (keyText k) := by
  unfold keyText
  split
  · exact unrejecting_ok _
  · exact unrejecting_ok _
  · exact unrejecting_ok _
  · exact unrejecting_ok _
  · exact unrejecting_intText _
  · exact unrejecting_abort _

mutual

/-- Writing a value may fail, but rejects nothing. -/
theorem unrejecting_write (around : List Nat) (depth : Nat) (v : Value) :
    Unrejecting (write around depth v) := by
  cases v with
  | null => exact unrejecting_ok _
  | bool b => exact unrejecting_ok _
  | int n => exact unrejecting_intText n
  | float x => exact unrejecting_ok _
  | text s => exact unrejecting_ok _
  | list items => exact (unrejecting_writeItems around (depth + 1) items).map _
  | pair a b =>
    refine (unrejecting_write around (depth + 1) a).bind fun x => ?_
    exact (unrejecting_write around (depth + 1) b).bind fun y => unrejecting_ok _
  | mapping entries => exact (unrejecting_writeEntries around (depth + 1) entries).map _
  | knot label body =>
    rw [write]
    split
    · exact unrejecting_abort _
    · exact unrejecting_write (label :: around) depth body
  | back label => exact unrejecting_abort _
  | octets bytes => exact unrejecting_abort _
  | date d => exact unrejecting_abort _
  | moment m => exact unrejecting_abort _
  | set items => exact unrejecting_abort _

theorem unrejecting_writeItems (around : List Nat) (depth : Nat) (vs : List Value) :
    Unrejecting (writeItems around depth vs) := by
  cases vs with
  | nil => exact unrejecting_ok _
  | cons v vs =>
    refine (unrejecting_write around depth v).bind fun x => ?_
    exact (unrejecting_writeItems around depth vs).bind fun xs => unrejecting_ok _

theorem unrejecting_writeEntries (around : List Nat) (depth : Nat) (es : List (Value × Value)) :
    Unrejecting (writeEntries around depth es) := by
  cases es with
  | nil => exact unrejecting_ok _
  | cons e es =>
    obtain ⟨k, v⟩ := e
    refine (unrejecting_keyText k).bind fun key => ?_
    refine (unrejecting_write around depth v).bind fun x => ?_
    exact (unrejecting_writeEntries around depth es).bind fun xs => unrejecting_ok _

end

end Json

namespace Report

/-- **The selection rejects nothing.** -/
theorem unrejecting_select (ms : List MachineType) (zone : Value) (usableOnly : Bool) :
    Unrejecting (select ms zone usableOnly) := by
  have hzone : Unrejecting (Identity.zoneName zone) := by
    unfold Identity.zoneName
    split
    · exact unrejecting_ok _
    · split
      · exact unrejecting_ok _
      · exact unrejecting_abort _
  exact hzone.bind fun wanted => unrejecting_ok _

theorem unrejecting_requireShown (vs : List Value) : Unrejecting (requireShown vs) := by
  unfold requireShown
  split
  · exact unrejecting_abort _
  · exact unrejecting_ok _

/-- A text that is made of shown values may fail to show one, but rejects nothing. -/
theorem unrejecting_requireShown_bind (vs : List Value) (text : Text) :
    Unrejecting (requireShown vs >>= fun _ => .ok text) :=
  (unrejecting_requireShown vs).bind fun _ => unrejecting_ok text

/-- A table may also fail over the marks in its cells. -/
theorem Table.unrejecting_render (cell : Text → Option Text) (colored : Bool)
    (ms : List MachineType) : Unrejecting (Table.render cell colored ms) := by
  refine (unrejecting_requireShown _).bind fun _ => ?_
  cases Table.shownRows? cell colored ms with
  | none => exact unrejecting_abort _
  | some rows => exact unrejecting_ok _

theorem mem_of_select {ms chosen : List MachineType} {zone : Value} {usableOnly : Bool}
    (h : select ms zone usableOnly = .ok chosen) {m : MachineType} (hm : m ∈ chosen) :
    m ∈ ms := by
  obtain ⟨wanted, -, hchosen⟩ := bind_eq_ok_iff.1 h
  obtain rfl := Except.ok.inj hchosen
  exact List.mem_of_mem_filter hm

namespace Json

/-- The first time of machine types that is outside the years 1 to 9999, in the order in which
a catalog writes them. -/
def outside? (ms : List MachineType) : Option Int :=
  (ms.flatMap MachineType.times).findSome? Timestamp.outside?

/-- Machine types that were read are written in order, or the first of their times outside
the years 1 to 9999 is rejected. -/
theorem writes_wireForms {ms : List MachineType} (h : ∀ m ∈ ms, m.IsRead) :
    Timestamp.Writes (outside? ms) (wireForms ms) := by
  induction ms with
  | nil => exact Timestamp.writes_ok []
  | cons m ms ih =>
    rw [List.forall_mem_cons] at h
    have hfirst : outside? (m :: ms) =
        (m.times.findSome? Timestamp.outside?).or ((outside? ms).or none) := by
      rw [outside?, List.flatMap_cons, List.findSome?_append, Option.or_none, outside?]
    rw [hfirst, wireForms]
    refine (MachineType.writes_toWire h.1).bind fun v => ?_
    exact (ih h.2).bind fun vs => Timestamp.writes_ok (v :: vs)

/-- **A JSON catalog rejects the first time outside the years 1 to 9999**, and nothing else. -/
theorem render_eq_rejected_iff {ms : List MachineType} (h : ∀ m ∈ ms, m.IsRead) (now : Moment)
    (source : Text) (why : Rejection) :
    render now source ms = .error (.rejected why) ↔
      ∃ n, outside? ms = some n ∧ why = .timestampRange (.int n) := by
  have hwrites := writes_wireForms h
  rw [render, document]
  cases hfirst : outside? ms with
  | none =>
    rw [hfirst] at hwrites
    obtain ⟨vs, hvs⟩ := hwrites
    rw [hvs]
    constructor
    · intro he
      exact absurd he (Json.unrejecting_write [] 0 _ why)
    · rintro ⟨n, hn, -⟩
      cases hn
  | some n =>
    rw [hfirst] at hwrites
    have herror : wireForms ms = .error (.rejected (.timestampRange (.int n))) := hwrites
    rw [herror]
    constructor
    · intro he
      exact ⟨n, rfl, (Failure.rejected.inj (Except.error.inj he)).symm⟩
    · rintro ⟨k, hk, rfl⟩
      obtain rfl := Option.some.inj hk
      rfl

end Json
end Report

end MachineCatalog
