/-
# What a move does

A move makes its calls in a fixed order and ends with the first that is refused.  So it
goes one of three ways (`MoveOrder.course_perform`): it stops before anything has changed,
or the removal of the original is refused after the copy, or the object moves.  All else
follows from these.

Between two buckets a move never loses the object, and it keeps it in the target when it
returns.  A move onto the same bucket that returns has removed the copy with the original
(`MoveOrder.perform_keeps_iff`).
-/

import MachineCatalog.Proofs.Storage.Buckets
import MachineCatalog.Storage.Move

namespace MachineCatalog
namespace Storage

/-! ### Calls -/

namespace Client

/-- The client with one more call in its log. -/
def logged (c : Client) (x : Call) : Client := { c with log := c.log ++ [x] }

@[simp] theorem buckets_logged (c : Client) (x : Call) : (c.logged x).buckets = c.buckets := rfl

@[simp] theorem log_logged (c : Client) (x : Call) : (c.logged x).log = c.log ++ [x] := rfl

/-- Why calls of the given kind are refused, if they are set to fail. -/
def refusal? (c : Client) (stage : Stage) : Option Refusal :=
  c.failing.bind fun f => if f.stage = stage then some f.refusal else none

end Client

namespace Session

variable {α β : Type}

theorem bind_of_ok {x : Session α} {c c' : Client} {a : α} (h : x c = (c', .ok a))
    (f : α → Session β) : (x >>= f) c = f a c' := by
  simp only [bind, h]

theorem bind_of_error {x : Session α} {c c' : Client} {refusal : Refusal}
    (h : x c = (c', .error refusal)) (f : α → Session β) : (x >>= f) c = (c', .error refusal) := by
  simp only [bind, h]

/-- A call is logged, and refused if its kind is set to fail. -/
theorem call_eq (x : Call) (c : Client) :
    call x c = (c.logged x, match c.refusal? x.stage with
      | none => .ok ()
      | some refusal => .error refusal) := by
  obtain ⟨buckets, log, failing⟩ := c
  cases failing with
  | none => rfl
  | some f =>
    by_cases h : f.stage = x.stage <;> simp [call, Client.logged, Client.refusal?, h]

theorem call_of_none {x : Call} {c : Client} (h : c.refusal? x.stage = none) :
    call x c = (c.logged x, .ok ()) := by
  rw [call_eq, h]

theorem call_of_some {x : Call} {c : Client} {refusal : Refusal}
    (h : c.refusal? x.stage = some refusal) : call x c = (c.logged x, .error refusal) := by
  rw [call_eq, h]

/-- A call is refused, or has no effect but on the log. -/
theorem call_cases (x : Call) (c : Client) :
    (∃ refusal, call x c = (c.logged x, .error refusal)) ∨ call x c = (c.logged x, .ok ()) := by
  cases h : c.refusal? x.stage with
  | none => exact .inr (call_of_none h)
  | some refusal => exact .inl ⟨refusal, call_of_some h⟩

theorem connect_cases (project : Value) (c : Client) :
    (∃ refusal, connect project c = (c.logged (.connect project), .error refusal)) ∨
      connect project c = (c.logged (.connect project), .ok ()) :=
  call_cases (.connect project) c

theorem lookUp_cases (bucket name : Text) (c : Client) :
    (∃ refusal, lookUp bucket name c = (c.logged (.lookUp bucket name), .error refusal)) ∨
      lookUp bucket name c =
        (c.logged (.lookUp bucket name), .ok (c.buckets.content? bucket name)) := by
  rcases call_cases (.lookUp bucket name) c with ⟨refusal, h⟩ | h
  · exact .inl ⟨refusal, bind_of_error h _⟩
  · exact .inr (bind_of_ok h _)

/-- A copy is refused without effect, or its target exists and holds the content. -/
theorem copy_cases (source name content target : Text) (c : Client) :
    (∃ refusal, copy source name content target c =
        (c.logged (.copy source name target name), .error refusal)) ∨
      (c.buckets.get? target).isSome ∧ copy source name content target c =
        ({ c.logged (.copy source name target name) with
          buckets := c.buckets.store target name content }, .ok ()) := by
  rcases call_cases (.copy source name target name) c with ⟨refusal, h⟩ | h
  · exact .inl ⟨refusal, bind_of_error h _⟩
  · have hrest : copy source name content target c = _ := bind_of_ok h _
    rw [hrest, Client.buckets_logged]
    cases c.buckets.get? target with
    | none => exact .inl ⟨_, rfl⟩
    | some objects => exact .inr ⟨rfl, rfl⟩

/-- A removal is refused without effect, or it is done. -/
theorem delete_cases (bucket name : Text) (c : Client) :
    (∃ refusal, delete bucket name c = (c.logged (.delete bucket name), .error refusal)) ∨
      delete bucket name c = ({ c.logged (.delete bucket name) with
        buckets := c.buckets.remove bucket name }, .ok ()) := by
  rcases call_cases (.delete bucket name) c with ⟨refusal, h⟩ | h
  · exact .inl ⟨refusal, bind_of_error h _⟩
  · exact .inr (bind_of_ok h _)

end Session

/-! ### One move -/

namespace MoveOrder

/-- The call that opens a client for a project. -/
def opening (project : Option Value) : List Call := project.toList.map Call.connect

/-- The calls of a move up to the copy. -/
def upToCopy (o : MoveOrder) (project : Option Value) : List Call :=
  opening project ++ [.lookUp o.source o.name, .copy o.source o.name o.target o.name]

/-- The calls of a move of which none is refused. -/
def plan (o : MoveOrder) (project : Option Value) : List Call :=
  o.upToCopy project ++ [.delete o.source o.name]

/-- The three ways of a move: the calls that it makes, the buckets that it leaves, and
whether the object has moved. -/
inductive Course (o : MoveOrder) (project : Option Value) (old : Buckets) :
    List Call → Buckets → Except Refusal Unit → Prop
  /-- The object is missing, or a call up to the copy is refused. -/
  | stopped {calls : List Call} {refusal : Refusal} (h : calls <+: o.upToCopy project) :
    Course o project old calls old (.error refusal)
  /-- The removal of the original is refused. -/
  | copied {content : Text} {refusal : Refusal}
    (hs : old.content? o.source o.name = some content) (ht : (old.get? o.target).isSome) :
    Course o project old (o.plan project) (old.store o.target o.name content) (.error refusal)
  /-- The object has moved. -/
  | moved {content : Text}
    (hs : old.content? o.source o.name = some content) (ht : (old.get? o.target).isSome) :
    Course o project old (o.plan project)
      ((old.store o.target o.name content).remove o.source o.name) (.ok ())

/-- A client that is opened first adds a call, and nothing else. -/
theorem Course.opened {o : MoveOrder} {old new : Buckets} {calls : List Call}
    {outcome : Except Refusal Unit} (h : o.Course none old calls new outcome) (project : Value) :
    o.Course (some project) old (.connect project :: calls) new outcome := by
  cases h with
  | stopped h => exact .stopped ((List.prefix_cons_inj _).2 h)
  | copied hs ht => exact .copied hs ht
  | moved hs ht => exact .moved hs ht

theorem course_run (o : MoveOrder) (c : Client) : ∃ calls, (o.run c).1.log = c.log ++ calls ∧
    o.Course none c.buckets calls (o.run c).1.buckets (o.run c).2 := by
  rcases Session.lookUp_cases o.source o.name c with ⟨refusal, hl⟩ | hl
  · rw [run, Session.bind_of_error hl]
    exact ⟨_, rfl, .stopped ⟨_, rfl⟩⟩
  rw [run, Session.bind_of_ok hl]
  cases hs : c.buckets.content? o.source o.name with
  | none => exact ⟨_, rfl, .stopped ⟨_, rfl⟩⟩
  | some content =>
    dsimp only
    rcases Session.copy_cases o.source o.name content o.target (c.logged _) with
      ⟨refusal, hc⟩ | ⟨ht, hc⟩
    · rw [Session.bind_of_error hc]
      exact ⟨_, List.append_assoc .., .stopped ⟨_, List.append_nil _⟩⟩
    rw [Session.bind_of_ok hc]
    have hlog (x y z : Call) : c.log ++ [x] ++ [y] ++ [z] = c.log ++ [x, y, z] := by simp
    rcases Session.delete_cases o.source o.name _ with ⟨refusal, hd⟩ | hd
    · rw [hd]
      exact ⟨_, hlog .., .copied hs ht⟩
    · rw [hd]
      exact ⟨_, hlog .., .moved hs ht⟩

theorem course_session (o : MoveOrder) (project : Option Value) (c : Client) :
    ∃ calls, (o.session project c).1.log = c.log ++ calls ∧
      o.Course project c.buckets calls (o.session project c).1.buckets (o.session project c).2 := by
  cases project with
  | none => exact o.course_run c
  | some project =>
    rw [session, runFor]
    rcases Session.connect_cases project c with ⟨refusal, h⟩ | h
    · rw [Session.bind_of_error h]
      exact ⟨_, rfl, .stopped ⟨_, rfl⟩⟩
    · rw [Session.bind_of_ok h]
      obtain ⟨calls, hlog, hcourse⟩ := o.course_run (c.logged (.connect project))
      refine ⟨.connect project :: calls, ?_, hcourse.opened project⟩
      rw [hlog, Client.log_logged, List.append_assoc, List.singleton_append]

theorem client_perform (o : MoveOrder) (project : Option Value) (c : Client) :
    (o.perform project c).client = (o.session project c).1 := by
  rw [perform]
  rcases o.session project c with ⟨c', _ | _⟩ <;> rfl

theorem outcome_perform (o : MoveOrder) (project : Option Value) (c : Client) :
    (o.perform project c).outcome = (o.session project c).2 := by
  rw [perform]
  rcases o.session project c with ⟨c', _ | _⟩ <;> rfl

/-- **A move goes one of three ways.** -/
theorem course_perform (o : MoveOrder) (project : Option Value) (c : Client) :
    ∃ calls, (o.perform project c).client.log = c.log ++ calls ∧
      o.Course project c.buckets calls (o.perform project c).client.buckets
        (o.perform project c).outcome := by
  rw [client_perform, outcome_perform]
  exact o.course_session project c

/-! ### What follows from the course -/

section Course

variable {o : MoveOrder} {project : Option Value} {old new : Buckets} {calls : List Call}
  {refusal : Refusal} {outcome : Except Refusal Unit}

theorem not_mem_upToCopy (o : MoveOrder) (project : Option Value) :
    Call.delete o.source o.name ∉ o.upToCopy project := by
  cases project <;> simp [upToCopy, opening]

theorem Course.isPrefix (h : o.Course project old calls new outcome) :
    calls <+: o.plan project := by
  cases h with
  | stopped h => exact h.trans (List.prefix_append _ _)
  | copied => exact List.prefix_refl _
  | moved => exact List.prefix_refl _

theorem Course.of_missing (h : o.Course project old calls new outcome)
    (hm : old.content? o.source o.name = none) :
    new = old ∧ ∃ refusal, outcome = .error refusal := by
  cases h with
  | stopped => exact ⟨rfl, _, rfl⟩
  | copied hs => exact absurd (hm.symm.trans hs) nofun
  | moved hs => exact absurd (hm.symm.trans hs) nofun

/-- Before the removal of the original is tried, a move that fails has changed nothing. -/
theorem Course.of_not_mem (h : o.Course project old calls new (.error refusal))
    (hd : Call.delete o.source o.name ∉ calls) : new = old := by
  cases h with
  | stopped => rfl
  | copied => exact absurd (List.mem_append_right _ (List.mem_singleton_self _)) hd

/-- When the removal of the original is refused, the copy is there. -/
theorem Course.of_mem (h : o.Course project old calls new (.error refusal))
    (hd : Call.delete o.source o.name ∈ calls) (hne : o.source ≠ o.target) :
    ∃ content, old.content? o.source o.name = some content ∧
      new.content? o.source o.name = some content ∧
      new.content? o.target o.name = some content ∧
      old.AgreesExcept [(o.target, o.name)] new := by
  cases h with
  | stopped h => exact absurd (h.subset hd) (not_mem_upToCopy o project)
  | @copied content _ hs ht =>
    have hframe := Buckets.agreesExcept_store old o.target o.name content
    have hsource : (o.source, o.name) ∉ [(o.target, o.name)] := by simpa using hne
    exact ⟨content, hs, (hframe _ _ hsource).trans hs, Buckets.content?_store_self ht, hframe⟩

/-- A move that returns has moved the object, and nothing else. -/
theorem Course.of_ok (h : o.Course project old calls new (.ok ())) (hne : o.source ≠ o.target) :
    ∃ content, old.content? o.source o.name = some content ∧
      new.content? o.target o.name = some content ∧ new.content? o.source o.name = none ∧
      old.AgreesExcept [(o.target, o.name), (o.source, o.name)] new := by
  cases h with
  | @moved content hs ht =>
    have hstore := Buckets.agreesExcept_store old o.target o.name content
    have hremove := Buckets.agreesExcept_remove (old.store o.target o.name content) o.source o.name
    have htarget : (o.target, o.name) ∉ [(o.source, o.name)] := by simpa using hne.symm
    exact ⟨content, hs, (hremove _ _ htarget).trans (Buckets.content?_store_self ht),
      Buckets.content?_remove_self _ _ _, hstore.trans hremove⟩

/-- The original is removed only after all calls have been made, and then the copy is there. -/
theorem Course.of_removed (h : o.Course project old calls new outcome)
    (hr : new.content? o.source o.name ≠ old.content? o.source o.name)
    (hne : o.source ≠ o.target) :
    calls = o.plan project ∧ new.content? o.target o.name = old.content? o.source o.name := by
  cases h with
  | stopped => exact absurd rfl hr
  | @copied content _ hs ht =>
    have hsource : (o.source, o.name) ∉ [(o.target, o.name)] := by simpa using hne
    exact absurd (Buckets.agreesExcept_store old o.target o.name content _ _ hsource) hr
  | @moved content hs ht =>
    obtain ⟨content', hs', hnew, -, -⟩ := (Course.moved hs ht : o.Course project ..).of_ok hne
    exact ⟨rfl, hnew.trans hs'.symm⟩

end Course

/-- The content is still there after the move, under its name in the source or in the target,
and in the target when the move has returned. -/
def Keeps (o : MoveOrder) (content : Text) (new : Buckets) (outcome : Except Refusal Unit) : Prop :=
  (new.content? o.source o.name = some content ∨ new.content? o.target o.name = some content) ∧
    (outcome = .ok () → new.content? o.target o.name = some content)

theorem Course.keeps_iff {o : MoveOrder} {project : Option Value} {old new : Buckets}
    {calls : List Call} {outcome : Except Refusal Unit} {content : Text}
    (h : o.Course project old calls new outcome)
    (hc : old.content? o.source o.name = some content) :
    (o.Keeps content new outcome ↔ ¬(o.source = o.target ∧ outcome = .ok ())) ∧
      (o.source = o.target → outcome = .ok () → new.content? o.source o.name = none) := by
  cases h with
  | stopped => simp [Keeps, hc]
  | @copied content' _ hs ht =>
    obtain rfl : content' = content := Option.some.inj (hs.symm.trans hc)
    simp [Keeps, Buckets.content?_store_self ht]
  | @moved content' hs ht =>
    obtain rfl : content' = content := Option.some.inj (hs.symm.trans hc)
    have hgone := Buckets.content?_remove_self (old.store o.target o.name content') o.source o.name
    refine ⟨?_, fun _ _ => hgone⟩
    by_cases he : o.source = o.target
    · rw [← he] at hgone ⊢
      simp [Keeps, hgone, he.symm]
    · obtain ⟨content'', hs', hnew, -, -⟩ := (Course.moved hs ht : o.Course project ..).of_ok he
      obtain rfl : content'' = content' := Option.some.inj (hs'.symm.trans hs)
      simp [Keeps, hnew, he]

/-- **A move keeps the object unless it is onto the same bucket and returns.**  Then the copy
is removed with the original, and the object is gone. -/
theorem perform_keeps_iff (o : MoveOrder) (project : Option Value) (c : Client) {content : Text}
    (h : c.buckets.content? o.source o.name = some content) :
    (o.Keeps content (o.perform project c).client.buckets (o.perform project c).outcome ↔
        ¬(o.source = o.target ∧ (o.perform project c).outcome = .ok ())) ∧
      (o.source = o.target → (o.perform project c).outcome = .ok () →
        (o.perform project c).client.buckets.content? o.source o.name = none) := by
  obtain ⟨calls, -, hcourse⟩ := o.course_perform project c
  exact hcourse.keeps_iff h

/-- A client of two buckets, one of them with an object. -/
def twoBuckets : Client := ⟨[("a", [("x", "1")]), ("b", [])], [], none⟩

/-- The same client, where the next removal is refused. -/
def frozen : Client := { twoBuckets with failing := some ⟨.delete, .forbidden "no"⟩ }

/-- The object is kept when the removal of the original is refused. -/
theorem perform_keeps_iff_refused :
    let moved := (MoveOrder.mk "a" "x" "b").perform none frozen
    frozen.buckets.content? "a" "x" = some "1" ∧ moved.outcome = .error (.forbidden "no") ∧
      (MoveOrder.mk "a" "x" "b").Keeps "1" moved.client.buckets moved.outcome := by
  intro moved
  have hold : frozen.buckets.content? "a" "x" = some "1" := rfl
  have hrefused : moved.outcome = .error (.forbidden "no") := rfl
  have hkeeps := perform_keeps_iff ⟨"a", "x", "b"⟩ none frozen hold
  refine ⟨hold, hrefused, hkeeps.1.2 ?_⟩
  rintro ⟨-, hok⟩
  exact absurd (hrefused.symm.trans hok) nofun

/-- **A move onto the same bucket loses the object**, and reports that it has moved. -/
theorem perform_same_bucket :
    twoBuckets.buckets.content? "a" "x" = some "1" ∧
      (MoveOrder.mk "a" "x" "a").perform none twoBuckets =
        ⟨⟨[("a", []), ("b", [])],
          [.lookUp "a" "x", .copy "a" "x" "a" "x", .delete "a" "x"], none⟩,
          "Moved object x from bucket a to a\n", .ok ()⟩ ∧
      ¬(MoveOrder.mk "a" "x" "a").Keeps "1" [("a", []), ("b", [])] (.ok ()) := by
  have hlost : Buckets.content? [("a", []), ("b", [])] "a" "x" = none := rfl
  exact ⟨rfl, rfl, fun h => absurd (hlost.symm.trans (h.2 rfl)) nofun⟩

end MoveOrder
end Storage
end MachineCatalog
