/-
# Computations that give notices

One computation after another gives the notices of both, as far as it comes
(`Noted.bind_eq_ok_iff`, `Noted.bind_of_error`).  Lists of results are joined in
the same way (`Noted.append`), and the order in which the joins are made does not
matter (`Noted.append_assoc`).  What holds of all results of both holds of all results
of the joined computation (`Noted.Yields.append`).

On a console that refuses a notice, telling that notice fails (`Noted.printedOn_tell`), and
one computation after another is on the console what both are there
(`Noted.printedOn_bind`).  So a computation comes to its result there if all its notices
are shown, and fails over its marks otherwise (`Noted.outcome_printedOn`).
-/

import MachineCatalog.Notice
import Mathlib.Tactic.SplitIfs

namespace MachineCatalog
namespace Noted

variable {α β : Type}

theorem bind_of_ok {x : Noted α} {a : α} (f : α → Noted β) (h : x.outcome = .ok a) :
    (x >>= f) = ⟨x.notices ++ (f a).notices, (f a).outcome⟩ := by
  show bind x f = _
  rw [bind, h]

theorem bind_of_error {x : Noted α} {e : Failure} (f : α → Noted β) (h : x.outcome = .error e) :
    (x >>= f) = ⟨x.notices, .error e⟩ := by
  show bind x f = _
  rw [bind, h]

@[simp] theorem pure_eq (a : α) : (pure a : Noted α) = ⟨[], .ok a⟩ := rfl

@[simp] theorem lift_ok (a : α) : lift (.ok a) = ⟨[], .ok a⟩ := rfl

/-- The lists of two computations, joined. -/
def append (x y : Noted (List α)) : Noted (List α) := do
  let as ← x
  let bs ← y
  return as ++ bs

theorem append_of_ok {x : Noted (List α)} {as : List α} (y : Noted (List α))
    (h : x.outcome = .ok as) : append x y = ⟨x.notices ++ y.notices, y.outcome.map (as ++ ·)⟩ := by
  rw [append, bind_of_ok _ h]
  cases hy : y.outcome with
  | error e =>
    rw [bind_of_error _ hy]
    rfl
  | ok bs =>
    rw [bind_of_ok _ hy, pure_eq, List.append_nil]
    rfl

theorem append_of_error {x : Noted (List α)} {e : Failure} (y : Noted (List α))
    (h : x.outcome = .error e) : append x y = ⟨x.notices, .error e⟩ := bind_of_error _ h

theorem pure_nil_append (x : Noted (List α)) : append (pure []) x = x := by
  rw [append_of_ok x rfl]
  obtain ⟨notices, outcome⟩ := x
  cases outcome <;> rfl

theorem append_pure_nil (x : Noted (List α)) : append x (pure []) = x := by
  obtain ⟨notices, outcome⟩ := x
  cases outcome with
  | error e => rw [append_of_error _ rfl]
  | ok as =>
    rw [append_of_ok _ rfl]
    simp [Except.map]

theorem append_assoc (x y z : Noted (List α)) :
    append (append x y) z = append x (append y z) := by
  cases hx : x.outcome with
  | error e =>
    rw [append_of_error y hx, append_of_error _ hx, append_of_error z rfl]
  | ok as =>
    rw [append_of_ok y hx, append_of_ok _ hx]
    cases hy : y.outcome with
    | error e => rw [append_of_error z rfl, append_of_error z hy]; rfl
    | ok bs =>
      rw [append_of_ok z rfl, append_of_ok z hy, List.append_assoc]
      cases z.outcome with
      | error e => rfl
      | ok cs => simp [Except.map]

/-- The lists are joined when both computations succeed. -/
theorem append_eq_ok_iff {x y : Noted (List α)} {notices : List Notice} {cs : List α} :
    append x y = ⟨notices, .ok cs⟩ ↔ ∃ ns as ms bs, x = ⟨ns, .ok as⟩ ∧ y = ⟨ms, .ok bs⟩ ∧
      notices = ns ++ ms ∧ cs = as ++ bs := by
  obtain ⟨ns, x⟩ := x
  obtain ⟨ms, y⟩ := y
  cases x with
  | error e =>
    rw [append_of_error _ rfl]
    simp
  | ok as =>
    rw [append_of_ok _ rfl]
    cases y with
    | error e => simp [Except.map]
    | ok bs =>
      constructor
      · intro h
        cases h
        exact ⟨ns, as, ms, bs, rfl, rfl, rfl, rfl⟩
      · rintro ⟨_, _, _, _, h₁, h₂, rfl, rfl⟩
        cases h₁
        cases h₂
        rfl

/-- A failure of joined computations is a failure of one of them, the first having
succeeded if it is the second's. -/
theorem append_outcome_eq_error_iff {x y : Noted (List α)} {e : Failure} :
    (append x y).outcome = .error e ↔
      x.outcome = .error e ∨ (∃ as, x.outcome = .ok as) ∧ y.outcome = .error e := by
  cases hx : x.outcome with
  | error d =>
    rw [append_of_error y hx]
    simp
  | ok as =>
    rw [append_of_ok y hx]
    cases y.outcome <;> simp [Except.map]

/-- All results of the computation have the property. -/
def Yields (P : α → Prop) (x : Noted (List α)) : Prop :=
  ∀ as, x.outcome = .ok as → ∀ a ∈ as, P a

theorem yields_nil (P : α → Prop) (notices : List Notice) : Yields P ⟨notices, .ok []⟩ := by
  rintro as h
  obtain rfl := Except.ok.inj h
  exact List.forall_mem_nil _

theorem yields_error (P : α → Prop) (notices : List Notice) (e : Failure) :
    Yields P ⟨notices, .error e⟩ := nofun

theorem Yields.append {P : α → Prop} {x y : Noted (List α)} (hx : x.Yields P)
    (hy : y.Yields P) : (append x y).Yields P := by
  rintro cs h
  have hok : Noted.append x y = ⟨(Noted.append x y).notices, .ok cs⟩ := by rw [← h]
  obtain ⟨ns, as, ms, bs, rfl, rfl, -, rfl⟩ := append_eq_ok_iff.1 hok
  exact List.forall_mem_append.2 ⟨hx as rfl, hy bs rfl⟩

/-! ### On a console -/

section PrintedOn

variable (c : Console)

theorem printedOn_of_shown {x : Noted α} (h : x.notices.all c.shows = true) :
    x.printedOn c = x := if_pos h

theorem printedOn_of_refused {x : Noted α} (h : x.notices.all c.shows = false) :
    x.printedOn c = ⟨x.notices.takeWhile c.shows, abort .unfitMarks⟩ := by
  rw [printedOn, h, if_neg Bool.false_ne_true]

/-- **Telling fails when the console refuses the notice.** -/
theorem printedOn_tell (n : Notice) :
    (tell n).printedOn c = if c.shows n then tell n else lift (abort .unfitMarks) := by
  cases h : c.shows n with
  | true => exact printedOn_of_shown c (by simp [tell, h])
  | false =>
    rw [printedOn_of_refused c (by simp [tell, h])]
    simp [tell, lift, h]

/-- Of two rows of notices the second is printed when all of the first are shown. -/
theorem takeWhile_append_of_shown {ns : List Notice} (h : ns.all c.shows = true)
    (more : List Notice) :
    (ns ++ more).takeWhile c.shows = ns ++ more.takeWhile c.shows :=
  List.takeWhile_append_of_pos (List.all_eq_true.1 h)

theorem takeWhile_append_of_refused {ns : List Notice} (h : ns.all c.shows = false)
    (more : List Notice) : (ns ++ more).takeWhile c.shows = ns.takeWhile c.shows := by
  have hlen : (ns.takeWhile c.shows).length ≠ ns.length := by
    intro hlen
    have hself : ns.takeWhile c.shows = ns := (List.takeWhile_prefix _).eq_of_length hlen
    have hall : (ns.takeWhile c.shows).all c.shows = true := List.all_takeWhile
    rw [hself, h] at hall
    cases hall
  rw [List.takeWhile_append, if_neg hlen]

/-- **On a console one computation goes on after the other.** -/
theorem printedOn_bind (x : Noted α) (f : α → Noted β) :
    (x >>= f).printedOn c = x.printedOn c >>= fun a => (f a).printedOn c := by
  cases hx : x.notices.all c.shows with
  | false =>
    have hended : (x.printedOn c >>= fun a => (f a).printedOn c) =
        ⟨x.notices.takeWhile c.shows, abort .unfitMarks⟩ := by
      rw [printedOn_of_refused c hx]
      rfl
    rw [hended]
    cases ho : x.outcome with
    | error e =>
      rw [bind_of_error f ho]
      exact printedOn_of_refused c hx
    | ok a =>
      rw [bind_of_ok f ho, printedOn_of_refused c (by simp [hx])]
      simp only [takeWhile_append_of_refused c hx]
  | true =>
    rw [printedOn_of_shown c hx]
    cases ho : x.outcome with
    | error e =>
      rw [bind_of_error f ho, bind_of_error _ ho]
      exact printedOn_of_shown c hx
    | ok a =>
      rw [bind_of_ok f ho, bind_of_ok _ ho]
      cases hf : (f a).notices.all c.shows with
      | true =>
        rw [printedOn_of_shown c hf]
        exact printedOn_of_shown c (by simp [hx, hf])
      | false =>
        rw [printedOn_of_refused c hf, printedOn_of_refused c (by simp [hx, hf])]
        simp only [takeWhile_append_of_shown c hx]

theorem printedOn_append (x y : Noted (List α)) :
    (append x y).printedOn c = append (x.printedOn c) (y.printedOn c) := by
  rw [append, append, printedOn_bind]
  simp only [printedOn_bind]
  rfl

/-- **A computation comes to its result where all its notices are shown**, and fails over
their marks elsewhere. -/
theorem outcome_printedOn (x : Noted α) :
    (x.printedOn c).outcome =
      if x.notices.all c.shows then x.outcome else .error (.defect .unfitMarks) := by
  rw [printedOn]
  split <;> rfl

variable {c}

theorem outcome_printedOn_eq_ok_iff {x : Noted α} {a : α} :
    (x.printedOn c).outcome = .ok a ↔ x.notices.all c.shows = true ∧ x.outcome = .ok a := by
  rw [outcome_printedOn]
  split_ifs with h <;> simp [h]

theorem outcome_printedOn_eq_rejected_iff {x : Noted α} {why : Rejection} :
    (x.printedOn c).outcome = .error (.rejected why) ↔
      x.notices.all c.shows = true ∧ x.outcome = .error (.rejected why) := by
  rw [outcome_printedOn]
  split_ifs with h <;> simp [h]

theorem Yields.printedOn {P : α → Prop} {x : Noted (List α)} (h : x.Yields P) :
    (x.printedOn c).Yields P :=
  fun as has => h as (outcome_printedOn_eq_ok_iff.1 has).2

end PrintedOn

end Noted
end MachineCatalog
