/-
# Computations that fail

How the steps of a computation combine.  It succeeds when every step does
(`bind_eq_ok_iff`), and fails with the first that fails (`bind_eq_error_iff`).  A
rejection that comes out of it came out of a step, so its message can be written when
that is so for the steps (`Reportable.bind`).  Nor does a defect come out of it when
none comes out of a step (`Handled.bind`), or a rejection when no step rejects
(`Unrejecting.bind`).
-/

import MachineCatalog.Failure
import Mathlib.Tactic.SplitIfs

namespace MachineCatalog

variable {ε α β : Type}

@[simp] theorem ok_bind (a : α) (f : α → Except ε β) : (Except.ok a >>= f) = f a := rfl

@[simp] theorem error_bind (e : ε) (f : α → Except ε β) :
    (Except.error e >>= f) = Except.error e := rfl

@[simp] theorem pure_eq_ok (a : α) : (pure a : Except ε α) = .ok a := rfl

@[simp] theorem map_ok (f : α → β) (a : α) :
    (Except.ok a : Except ε α).map f = .ok (f a) := rfl

@[simp] theorem map_error (f : α → β) (e : ε) :
    (Except.error e : Except ε α).map f = .error e := rfl

/-- A computation succeeds when both of its steps do. -/
theorem bind_eq_ok_iff {x : Except ε α} {f : α → Except ε β} {b : β} :
    (x >>= f) = .ok b ↔ ∃ a, x = .ok a ∧ f a = .ok b := by
  cases x with
  | error e => simp
  | ok a => simp

theorem map_eq_ok_iff {x : Except ε α} {f : α → β} {b : β} :
    x.map f = .ok b ↔ ∃ a, x = .ok a ∧ f a = b := by
  cases x with
  | error e => simp
  | ok a => simp

/-- A computation fails when one of its steps does. -/
theorem bind_eq_error_iff {x : Except ε α} {f : α → Except ε β} {e : ε} :
    (x >>= f) = .error e ↔ x = .error e ∨ ∃ a, x = .ok a ∧ f a = .error e := by
  cases x with
  | error d => simp
  | ok a => simp

theorem map_eq_error_iff {x : Except ε α} {f : α → β} {e : ε} :
    x.map f = .error e ↔ x = .error e := by
  cases x with
  | error d => simp
  | ok a => simp

@[simp] theorem reject_ne_ok (why : Rejection) (a : α) : reject why ≠ Except.ok a := by
  rw [reject]
  split_ifs <;> simp [abort]

@[simp] theorem reject_bind (why : Rejection) (f : α → Except Failure β) :
    (reject why >>= f) = reject why := by
  rw [reject, reject]
  split_ifs <;> rfl

theorem ite_bind (c : Prop) [Decidable c] (x y : Except Failure α) (f : α → Except Failure β) :
    ((if c then x else y) >>= f) = if c then x >>= f else y >>= f := by
  split_ifs <;> rfl

/-- What a computation fails with. -/
def problem? : Except ε α → Option ε
  | .ok _ => none
  | .error e => some e

theorem eq_error_of_problem? {x : Except ε α} {e : ε} (h : problem? x = some e) :
    x = .error e := by
  cases x with
  | ok a => cases h
  | error d => rw [Option.some.inj h]

/-! ### Rejections that can be reported -/

/-- The message of the rejection can be written. -/
def Rejection.IsReportable (why : Rejection) : Prop :=
  why.value?.any Value.holdsLongInteger = false

theorem Rejection.IsReportable.reject_eq {why : Rejection} (h : why.IsReportable) :
    reject why = (.error (.rejected why) : Except Failure α) := by
  rw [reject, h, if_neg Bool.false_ne_true]

/-- Every rejection that comes out of the computation can be reported. -/
def Reportable (x : Except Failure α) : Prop :=
  ∀ why, x = .error (.rejected why) → why.IsReportable

theorem reportable_ok (a : α) : Reportable (.ok a) := nofun

theorem reportable_abort (what : Defect) : Reportable (abort what : Except Failure α) := nofun

theorem reportable_reject (why : Rejection) : Reportable (reject why : Except Failure α) := by
  rintro why' h
  rw [reject] at h
  split_ifs at h with hlong
  · exact absurd h nofun
  · obtain rfl := Failure.rejected.inj (Except.error.inj h)
    exact eq_false_of_ne_true hlong

theorem Reportable.bind {x : Except Failure α} {f : α → Except Failure β} (hx : Reportable x)
    (hf : ∀ a, Reportable (f a)) : Reportable (x >>= f) := by
  intro why h
  rcases bind_eq_error_iff.1 h with he | ⟨a, -, he⟩
  · exact hx why he
  · exact hf a why he

theorem Reportable.map {x : Except Failure α} (hx : Reportable x) (f : α → β) :
    Reportable (x.map f) :=
  fun why h => hx why (map_eq_error_iff.1 h)

/-! ### Computations without defects -/

/-- The computation succeeds, or what it was given is rejected. -/
def Handled (x : Except Failure α) : Prop := ∀ what, x ≠ .error (.defect what)

theorem handled_ok (a : α) : Handled (.ok a) := nofun

/-- A value is rejected when the message about it can be written. -/
theorem Rejection.IsReportable.handled_reject {why : Rejection} (h : why.IsReportable) :
    Handled (reject why : Except Failure α) := by
  rw [h.reject_eq]
  exact nofun

theorem Handled.bind {x : Except Failure α} {f : α → Except Failure β} (hx : Handled x)
    (hf : ∀ a, x = .ok a → Handled (f a)) : Handled (x >>= f) := by
  intro what h
  rcases bind_eq_error_iff.1 h with he | ⟨a, ha, he⟩
  · exact hx what he
  · exact hf a ha what he

theorem Handled.map {x : Except Failure α} (hx : Handled x) (f : α → β) : Handled (x.map f) :=
  fun what h => hx what (map_eq_error_iff.1 h)

/-- Such a computation has one of two ends. -/
theorem Handled.cases {x : Except Failure α} (h : Handled x) :
    (∃ a, x = .ok a) ∨ ∃ why, x = .error (.rejected why) := by
  cases x with
  | ok a => exact .inl ⟨a, rfl⟩
  | error e =>
    cases e with
    | rejected why => exact .inr ⟨why, rfl⟩
    | defect what => exact absurd rfl (h what)

/-! ### Computations without rejections -/

/-- The computation succeeds, or it ends with a defect. -/
def Unrejecting (x : Except Failure α) : Prop := ∀ why, x ≠ .error (.rejected why)

theorem unrejecting_ok (a : α) : Unrejecting (.ok a) := nofun

theorem unrejecting_abort (what : Defect) : Unrejecting (abort what : Except Failure α) := nofun

theorem Unrejecting.bind {x : Except Failure α} {f : α → Except Failure β} (hx : Unrejecting x)
    (hf : ∀ a, Unrejecting (f a)) : Unrejecting (x >>= f) := by
  intro why h
  rcases bind_eq_error_iff.1 h with he | ⟨a, -, he⟩
  · exact hx why he
  · exact hf a why he

theorem Unrejecting.map {x : Except Failure α} (hx : Unrejecting x) (f : α → β) :
    Unrejecting (x.map f) :=
  fun why h => hx why (map_eq_error_iff.1 h)

end MachineCatalog
