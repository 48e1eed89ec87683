/-
# Runs of moves

In a run every move meets the state that those before it have left, and in each of them any
kind of call may be refused.  What a move does (`MoveOrder.course_perform`) does not depend
on how the state came about, so every move of a run between different buckets changes
exactly the entries that it should and prints its report exactly when it returns
(`Attempt.conforms_of_mem_steps`).
-/

import MachineCatalog.Proofs.Storage.Moves

namespace MachineCatalog
namespace Storage

namespace MoveOrder

/-! ### Refusals and reports -/

theorem run_of_missing (o : MoveOrder) {c : Client}
    (h : c.buckets.content? o.source o.name = none) (hl : c.refusal? .lookUp = none) :
    (o.run c).2 =
      .error (.notFound ("gs://" ++ o.source ++ "/" ++ o.name ++ " does not exist")) := by
  have hcall : Session.call (.lookUp o.source o.name) c =
      (c.logged (.lookUp o.source o.name), .ok ()) := Session.call_of_none hl
  have hlook : Session.lookUp o.source o.name c =
      (c.logged (.lookUp o.source o.name), .ok (c.buckets.content? o.source o.name)) :=
    Session.bind_of_ok hcall _
  rw [run, Session.bind_of_ok hlook, h]
  rfl

/-- A missing object is reported when no call up to the lookup is refused. -/
theorem perform_of_missing (o : MoveOrder) {project : Option Value} {c : Client}
    (h : c.buckets.content? o.source o.name = none) (hl : c.refusal? .lookUp = none)
    (hc : project = none ∨ c.refusal? .connect = none) :
    (o.perform project c).outcome =
      .error (.notFound ("gs://" ++ o.source ++ "/" ++ o.name ++ " does not exist")) := by
  rw [outcome_perform]
  cases project with
  | none => exact o.run_of_missing h hl
  | some project =>
    have hopen : Session.connect project c = (c.logged (.connect project), .ok ()) :=
      Session.call_of_none (hc.resolve_left nofun)
    rw [session, runFor, Session.bind_of_ok hopen]
    exact o.run_of_missing h hl

theorem output_perform (o : MoveOrder) (project : Option Value) (c : Client) :
    (o.perform project c).outcome = .ok () ∧ (o.perform project c).output = o.report ++ "\n" ∨
      (∃ refusal, (o.perform project c).outcome = .error refusal) ∧
        (o.perform project c).output = [] := by
  rw [perform]
  rcases o.session project c with ⟨c', refusal | _⟩
  · exact .inr ⟨⟨refusal, rfl⟩, rfl⟩
  · exact .inl ⟨rfl, rfl⟩

end MoveOrder

/-! ### Moves in a run -/

/-- A move in a run: with an open client or for a project, and the kind of call that is
refused meanwhile, if any.  A move ends with the first refused call, so that one kind is all
that can be refused in it. -/
structure Attempt where
  order : MoveOrder
  project : Option Value
  failing : Option Failing

/-- The move, with the calls refused that are set to fail. -/
def Attempt.perform (a : Attempt) (c : Client) : Moved :=
  a.order.perform a.project { c with failing := a.failing }

/-- A move that has been made, and the client as it was before. -/
structure Step where
  attempt : Attempt
  before : Client
  moved : Moved

/-- The moves of a run, each with what the one before has left. -/
def steps (c : Client) : List Attempt → List Step
  | [] => []
  | a :: as => ⟨a, c, a.perform c⟩ :: steps (a.perform c).client as

namespace Step

variable (s : Step)

/-- What is moved, and where. -/
def order : MoveOrder := s.attempt.order

/-- The buckets before the move. -/
def old : Buckets := s.before.buckets

/-- The buckets after the move. -/
def new : Buckets := s.moved.client.buckets

/-- The calls of the move. -/
def calls : List Call := s.moved.client.log.drop s.before.log.length

/-- The removal of the original has been tried. -/
def TriesRemoval : Prop := Call.delete s.order.source s.order.name ∈ s.calls

/-- No call up to the lookup is set to fail. -/
def ReachesLookUp : Prop :=
  ∀ f ∈ s.attempt.failing, f.stage ≠ .lookUp ∧ (f.stage = .connect → s.attempt.project = none)

/-- A move does what it should: all of it when it returns, and otherwise nothing but the
copy, which is there when the removal of the original is refused. -/
structure Conforms : Prop where
  /-- A move that returns has moved the object, and changed no other entry. -/
  returned : s.moved.outcome = .ok () → ∃ content,
    s.old.content? s.order.source s.order.name = some content ∧
      s.new.content? s.order.target s.order.name = some content ∧
      s.new.content? s.order.source s.order.name = none ∧
      s.old.AgreesExcept [(s.order.target, s.order.name), (s.order.source, s.order.name)] s.new
  /-- The report is printed exactly when the move returns, and nothing else is printed. -/
  printed : s.moved.outcome = .ok () ∧ s.moved.output = s.order.report ++ "\n" ∨
    (∃ refusal, s.moved.outcome = .error refusal) ∧ s.moved.output = []
  /-- A missing object is refused, with a message about it when the lookup is reached. -/
  missing : s.old.content? s.order.source s.order.name = none →
    s.old.AgreesExcept [] s.new ∧ (∃ refusal, s.moved.outcome = .error refusal) ∧
      (s.ReachesLookUp → s.moved.outcome = .error (.notFound
        ("gs://" ++ s.order.source ++ "/" ++ s.order.name ++ " does not exist")))
  /-- A move that fails up to the copy changes nothing. -/
  upToCopy : ∀ refusal, s.moved.outcome = .error refusal → ¬s.TriesRemoval →
    s.old.AgreesExcept [] s.new
  /-- A move that fails at the removal has made the copy, and changed nothing else. -/
  atRemoval : ∀ refusal, s.moved.outcome = .error refusal → s.TriesRemoval → ∃ content,
    s.old.content? s.order.source s.order.name = some content ∧
      s.new.content? s.order.source s.order.name = some content ∧
      s.new.content? s.order.target s.order.name = some content ∧
      s.old.AgreesExcept [(s.order.target, s.order.name)] s.new
  /-- Calls are made in their order, the copy before the removal. -/
  inOrder : s.calls <+: s.order.plan s.attempt.project
  /-- An original that is gone has been copied. -/
  copiedFirst : s.new.content? s.order.source s.order.name ≠
      s.old.content? s.order.source s.order.name →
    s.calls = s.order.plan s.attempt.project ∧
      s.new.content? s.order.target s.order.name = s.old.content? s.order.source s.order.name

end Step

namespace Attempt

theorem course_perform (a : Attempt) (c : Client) :
    a.order.Course a.project c.buckets (Step.mk a c (a.perform c)).calls
      (a.perform c).client.buckets (a.perform c).outcome := by
  obtain ⟨calls, hlog, hcourse⟩ :=
    a.order.course_perform a.project { c with failing := a.failing }
  have hcalls : (Step.mk a c (a.perform c)).calls = calls := by
    show (a.perform c).client.log.drop c.log.length = calls
    rw [perform, hlog, List.drop_left]
  rw [hcalls]
  exact hcourse

theorem refusal?_of_reachesLookUp {a : Attempt} {c : Client} {moved : Moved}
    (h : (Step.mk a c moved).ReachesLookUp) :
    { c with failing := a.failing : Client }.refusal? .lookUp = none ∧
      (a.project = none ∨ { c with failing := a.failing : Client }.refusal? .connect = none) := by
  rw [Client.refusal?, Client.refusal?]
  cases hf : a.failing with
  | none => exact ⟨rfl, .inr rfl⟩
  | some f =>
    obtain ⟨hl, hc⟩ := h f hf
    rw [Option.bind_some, Option.bind_some, if_neg hl]
    refine ⟨rfl, ?_⟩
    by_cases hs : f.stage = .connect
    · exact .inl (hc hs)
    · exact .inr (if_neg hs)

/-- One move between different buckets does what it should, whatever state it meets. -/
theorem conforms (a : Attempt) (c : Client) (hne : a.order.source ≠ a.order.target) :
    (Step.mk a c (a.perform c)).Conforms := by
  have hcourse := a.course_perform c
  have hnone (new : Buckets) (h : new = c.buckets) : c.buckets.AgreesExcept [] new :=
    h ▸ Buckets.agreesExcept_refl [] c.buckets
  constructor
  · intro ho
    rw [show (a.perform c).outcome = _ from ho] at hcourse
    exact hcourse.of_ok hne
  · exact a.order.output_perform a.project _
  · intro hm
    obtain ⟨hnew, hrefused⟩ := hcourse.of_missing hm
    refine ⟨hnone _ hnew, hrefused, fun hreach => ?_⟩
    obtain ⟨hl, hc⟩ := refusal?_of_reachesLookUp hreach
    exact a.order.perform_of_missing hm hl hc
  · intro refusal ho hd
    rw [show (a.perform c).outcome = _ from ho] at hcourse
    exact hnone _ (hcourse.of_not_mem hd)
  · intro refusal ho hd
    rw [show (a.perform c).outcome = _ from ho] at hcourse
    exact hcourse.of_mem hd hne
  · exact hcourse.isPrefix
  · intro hr
    exact hcourse.of_removed hr hne

/-- **Every move of a run does what it should**, whatever the moves before it have left: in any
run of moves between different buckets, any call of any of them being refused. -/
theorem conforms_of_mem_steps (c : Client) (attempts : List Attempt)
    (h : ∀ a ∈ attempts, a.order.source ≠ a.order.target) :
    ∀ s ∈ steps c attempts, s.Conforms := by
  induction attempts generalizing c with
  | nil => exact List.forall_mem_nil _
  | cons a as ih =>
    rw [List.forall_mem_cons] at h
    rw [steps, List.forall_mem_cons]
    exact ⟨a.conforms c h.1, ih _ h.2⟩

/-- The same move three times: the removal is refused, then nothing is, then the object is no
longer there. -/
def thrice : List Attempt := [
  ⟨⟨"a", "x", "b"⟩, none, some ⟨.delete, .forbidden "no"⟩⟩,
  ⟨⟨"a", "x", "b"⟩, none, none⟩,
  ⟨⟨"a", "x", "b"⟩, some (.text "p"), some ⟨.copy, .broken⟩⟩]

theorem conforms_of_mem_steps_thrice :
    (steps MoveOrder.twoBuckets thrice).map (·.moved.outcome) = [
        .error (.forbidden "no"), .ok (), .error (.notFound "gs://a/x does not exist")] ∧
      ∀ s ∈ steps MoveOrder.twoBuckets thrice, s.Conforms := by
  have hne : ∀ a ∈ thrice, a.order.source ≠ a.order.target := by
    simp only [thrice, List.forall_mem_cons]
    decide
  exact ⟨rfl, conforms_of_mem_steps MoveOrder.twoBuckets thrice hne⟩

end Attempt
end Storage
end MachineCatalog
