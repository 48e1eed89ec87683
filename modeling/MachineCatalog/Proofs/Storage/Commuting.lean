/-
# Moves of different objects commute

All that a move reads and changes stands under the name of its object: in every bucket its
lookup, its copy and its removal are confined to that name (`MoveOrder.acts_perform`).  So
the moves of two objects can be made in either order, between any buckets and whether or not
they are refused, and a move into a bucket that did not have the object can be undone by the
move back (`MoveOrder.moves_commute`).
-/

import MachineCatalog.Proofs.Storage.Runs

namespace MachineCatalog
namespace Storage

/-! ### Columns -/

/-- What stands under one name: for every bucket that exists its content there, if any. -/
abbrev Column := Text → Option (Option Text)

namespace Column

/-- Replaces what stands under the name in a bucket that exists. -/
def set (col : Column) (bucket : Text) (content? : Option Text) : Column := fun b =>
  if b = bucket then (col b).map fun _ => content? else col b

theorem set_self (col : Column) (bucket : Text) (content? : Option Text) :
    col.set bucket content? bucket = (col bucket).map fun _ => content? := if_pos rfl

theorem set_of_ne (col : Column) {bucket b : Text} (content? : Option Text) (h : b ≠ bucket) :
    col.set bucket content? b = col b := if_neg h

/-- The last content counts. -/
theorem set_set (col : Column) (bucket : Text) (old? new? : Option Text) :
    (col.set bucket old?).set bucket new? = col.set bucket new? := by
  funext b
  by_cases hb : b = bucket
  · rw [hb, set_self, set_self, set_self, Option.map_map]
    rfl
  · rw [set_of_ne _ _ hb, set_of_ne _ _ hb, set_of_ne _ _ hb]

theorem set_comm (col : Column) {bucket bucket' : Text} (content? content?' : Option Text)
    (h : bucket ≠ bucket') :
    (col.set bucket content?).set bucket' content?' =
      (col.set bucket' content?').set bucket content? := by
  funext b
  by_cases hb : b = bucket
  · subst hb
    rw [set_of_ne _ _ h, set_self, set_self, set_of_ne _ _ h]
  · by_cases hb' : b = bucket'
    · subst hb'
      rw [set_self, set_of_ne _ _ hb, set_of_ne _ _ hb, set_self]
    · rw [set_of_ne _ _ hb', set_of_ne _ _ hb, set_of_ne _ _ hb, set_of_ne _ _ hb']

/-- Putting what is there changes nothing. -/
theorem set_eq_self {col : Column} {bucket : Text} {content? : Option Text}
    (h : col bucket = some content?) : col.set bucket content? = col := by
  funext b
  by_cases hb : b = bucket
  · rw [hb, set_self, h]
    rfl
  · rw [set_of_ne _ _ hb]

end Column

namespace Buckets

/-- The buckets as a map of maps, where the order of buckets and names does not matter. -/
def toMap (bs : Buckets) (bucket : Text) : Option (Text → Option Text) :=
  (bs.get? bucket).map Named.get?

/-- What stands under one name in all buckets. -/
def column (bs : Buckets) (name : Text) : Column := fun bucket =>
  (bs.get? bucket).map fun objects => objects.get? name

theorem content?_eq_join (bs : Buckets) (bucket name : Text) :
    bs.content? bucket name = (bs.column name bucket).join := by
  rw [content?, column, ← Option.bind_id_eq_join, Option.bind_map]
  rfl

/-- Buckets that are alike under every name are the same map. -/
theorem toMap_ext {bs bs' : Buckets} (h : ∀ name, bs.column name = bs'.column name) :
    bs.toMap = bs'.toMap := by
  funext bucket
  have hcol (name : Text) : (bs.get? bucket).map (fun objects => objects.get? name) =
      (bs'.get? bucket).map (fun objects => objects.get? name) := congrFun (h name) bucket
  rw [toMap, toMap]
  cases hb : bs.get? bucket with
  | none =>
    have hnone := hcol []
    rw [hb, Option.map_none, eq_comm, Option.map_eq_none_iff] at hnone
    rw [hnone]
  | some objects =>
    cases hb' : bs'.get? bucket with
    | none => exact absurd (hcol []) (by rw [hb, hb']; nofun)
    | some objects' =>
      rw [Option.map_some, Option.map_some, Option.some_inj]
      funext name
      have hname := hcol name
      rw [hb, hb'] at hname
      exact Option.some.inj hname

/-- Changing the object of one name in one bucket changes only the column of that name. -/
theorem column_map_key (bs : Buckets) {bucket name : Text} {f : Named Text → Named Text}
    {content? : Option Text}
    (hf : ∀ objects n, (f objects).get? n = if n = name then content? else objects.get? n)
    (n : Text) :
    column (bs.map fun b => if b.1 = bucket then (b.1, f b.2) else b) n =
      if n = name then (bs.column n).set bucket content? else bs.column n := by
  funext b
  have hset : (if n = name then (bs.column n).set bucket content? else bs.column n) b =
      if b = bucket then (bs.get? b).map fun objects => (f objects).get? n
        else bs.column n b := by
    simp only [hf]
    split_ifs with hn hb hb
    · rw [hb, Column.set_self, column, Option.map_map]
      rfl
    · rw [Column.set_of_ne _ _ hb]
    · rfl
    · rfl
  rw [hset, column, Named.get?_map_key]
  split_ifs
  · rw [Option.map_map]
    rfl
  · rfl

theorem column_store (bs : Buckets) (bucket name content n : Text) :
    (bs.store bucket name content).column n =
      if n = name then (bs.column n).set bucket (some content) else bs.column n :=
  bs.column_map_key (fun objects n => Named.get?_put name content objects n) n

theorem column_remove (bs : Buckets) (bucket name n : Text) :
    (bs.remove bucket name).column n =
      if n = name then (bs.column n).set bucket none else bs.column n :=
  bs.column_map_key (fun objects n => Named.get?_erase name objects n) n

end Buckets

/-! ### Calls that are not refused -/

namespace Session

variable {c : Client}

theorem call_of_open (h : c.failing = none) (x : Call) : call x c = (c.logged x, .ok ()) :=
  call_of_none (by rw [Client.refusal?, h]; rfl)

theorem lookUp_of_open (h : c.failing = none) (bucket name : Text) :
    lookUp bucket name c =
      (c.logged (.lookUp bucket name), .ok (c.buckets.content? bucket name)) :=
  bind_of_ok (call_of_open h _) _

theorem copy_of_open (h : c.failing = none) (source name content target : Text) :
    copy source name content target c = match c.buckets.get? target with
      | none => (c.logged (.copy source name target name),
          .error (.notFound "The specified bucket does not exist."))
      | some _ => ({ c.logged (.copy source name target name) with
          buckets := c.buckets.store target name content }, .ok ()) :=
  bind_of_ok (call_of_open h _) _

theorem delete_of_open (h : c.failing = none) (bucket name : Text) :
    delete bucket name c = ({ c.logged (.delete bucket name) with
      buckets := c.buckets.remove bucket name }, .ok ()) :=
  bind_of_ok (call_of_open h _) _

end Session

/-! ### One move on its column -/

namespace MoveOrder

/-- The move back. -/
def reverse (o : MoveOrder) : MoveOrder := ⟨o.target, o.name, o.source⟩

/-- What a move does to the column of its name when no call is set to fail, and how it ends. -/
def onColumn (o : MoveOrder) (col : Column) : Column × Except Refusal Unit :=
  match (col o.source).join, col o.target with
  | none, _ => (col, .error (.notFound ("gs://" ++ o.source ++ "/" ++ o.name ++ " does not exist")))
  | some _, none => (col, .error (.notFound "The specified bucket does not exist."))
  | some content, some _ => ((col.set o.target (some content)).set o.source none, .ok ())

theorem onColumn_outcome (o : MoveOrder) (col : Column) :
    (o.onColumn col).2 = .ok () ∨ ∃ message, (o.onColumn col).2 = .error (.notFound message) := by
  rw [onColumn]
  split
  · exact .inr ⟨_, rfl⟩
  · exact .inr ⟨_, rfl⟩
  · exact .inl rfl

/-- The move back undoes a move that has put the name where it was not. -/
theorem onColumn_reverse (o : MoveOrder) {col : Column} (hne : o.source ≠ o.target)
    (hok : (o.onColumn col).2 = .ok ()) (hfree : (col o.target).join = none) :
    o.reverse.onColumn (o.onColumn col).1 = (col, .ok ()) := by
  revert hok
  rw [onColumn]
  split
  · nofun
  · nofun
  next content old hs ht =>
    intro _
    obtain hsource : col o.source = some (some content) := Option.join_eq_some_iff.1 hs
    obtain rfl : old = none := by rwa [ht] at hfree
    -- the name has left the source, and the target has it
    have hleft : (col.set o.target (some content)).set o.source none o.source = some none := by
      rw [Column.set_self, Column.set_of_ne _ _ hne, hsource]
      rfl
    have hthere : (col.set o.target (some content)).set o.source none o.target =
        some (some content) := by
      rw [Column.set_of_ne _ _ hne.symm, Column.set_self, ht]
      rfl
    have hundone : (((col.set o.target (some content)).set o.source none).set o.source
        (some content)).set o.target none = col := by
      calc
        _ = ((col.set o.target (some content)).set o.source (some content)).set o.target none := by
          rw [Column.set_set]
        _ = ((col.set o.target (some content)).set o.target none).set o.source (some content) :=
          Column.set_comm _ _ _ hne
        _ = (col.set o.target none).set o.source (some content) := by rw [Column.set_set]
        _ = col := by rw [Column.set_eq_self ht, Column.set_eq_self hsource]
    rw [onColumn, reverse]
    simp only [hleft, hthere, Option.join_some, hundone]

/-- A move acts on the column of its name and on nothing else. -/
structure Acts (o : MoveOrder) (c c' : Client) (outcome : Except Refusal Unit) : Prop where
  /-- What it does and how it ends depends on that column alone. -/
  own : (c'.buckets.column o.name, outcome) = o.onColumn (c.buckets.column o.name)
  /-- All other columns stay. -/
  other : ∀ n, n ≠ o.name → c'.buckets.column n = c.buckets.column n
  /-- No call is set to fail afterwards. -/
  stillOpen : c'.failing = none

theorem acts_run (o : MoveOrder) {c : Client} (h : c.failing = none) :
    o.Acts c (o.run c).1 (o.run c).2 := by
  rw [run, Session.bind_of_ok (Session.lookUp_of_open h _ _)]
  have hcontent := c.buckets.content?_eq_join o.source o.name
  cases hs : c.buckets.content? o.source o.name with
  | none =>
    rw [hs] at hcontent
    refine ⟨?_, fun n _ => rfl, h⟩
    rw [onColumn, ← hcontent]
    rfl
  | some content =>
    rw [hs] at hcontent
    dsimp only
    have hcopy := Session.copy_of_open (c := c.logged (.lookUp o.source o.name)) h o.source o.name
      content o.target
    rw [Client.buckets_logged] at hcopy
    cases ht : c.buckets.get? o.target with
    | none =>
      rw [ht] at hcopy
      have htarget : c.buckets.column o.name o.target = none := by rw [Buckets.column, ht]; rfl
      rw [Session.bind_of_error hcopy]
      refine ⟨?_, fun n _ => rfl, h⟩
      rw [onColumn, ← hcontent, htarget]
      rfl
    | some objects =>
      rw [ht] at hcopy
      have htarget : c.buckets.column o.name o.target = some (objects.get? o.name) := by
        rw [Buckets.column, ht]
        rfl
      have hdelete := Session.delete_of_open (c := { (c.logged (.lookUp o.source o.name)).logged
        (.copy o.source o.name o.target o.name) with
          buckets := c.buckets.store o.target o.name content }) h o.source o.name
      rw [Session.bind_of_ok hcopy, hdelete]
      refine ⟨?_, fun n hn => ?_, h⟩
      · rw [onColumn, ← hcontent, htarget]
        dsimp only
        rw [Buckets.column_remove, if_pos rfl, Buckets.column_store, if_pos rfl]
      · rw [Buckets.column_remove, if_neg hn, Buckets.column_store, if_neg hn]

/-- **A move is confined to the name of its object**, in every bucket. -/
theorem acts_perform (o : MoveOrder) (project : Option Value) {c : Client}
    (h : c.failing = none) :
    o.Acts c (o.perform project c).client (o.perform project c).outcome := by
  rw [client_perform, outcome_perform]
  cases project with
  | none => exact o.acts_run h
  | some project =>
    have hopen : Session.connect project c = (c.logged (.connect project), .ok ()) :=
      Session.call_of_open h _
    rw [session, runFor, Session.bind_of_ok hopen]
    obtain ⟨hown, hother, hstill⟩ := o.acts_run (c := c.logged (.connect project)) h
    exact ⟨hown, hother, hstill⟩

/-! ### Two moves -/

section Two

variable {o : MoveOrder} {c c' d d' : Client} {outcome outcome' : Except Refusal Unit}

theorem Acts.column_eq (h : o.Acts c c' outcome) :
    c'.buckets.column o.name = (o.onColumn (c.buckets.column o.name)).1 := congrArg Prod.fst h.own

theorem Acts.outcome_eq (h : o.Acts c c' outcome) :
    outcome = (o.onColumn (c.buckets.column o.name)).2 := congrArg Prod.snd h.own

theorem Acts.congr (h : o.Acts c c' outcome) (h' : o.Acts d d' outcome')
    (hcol : c.buckets.column o.name = d.buckets.column o.name) :
    c'.buckets.column o.name = d'.buckets.column o.name ∧ outcome = outcome' := by
  rw [h.column_eq, h.outcome_eq, h'.column_eq, h'.outcome_eq, hcol]
  exact ⟨rfl, rfl⟩

theorem output_perform_congr {project project' : Option Value}
    (h : (o.perform project c).outcome = (o.perform project' d).outcome) :
    (o.perform project c).output = (o.perform project' d).output := by
  rcases o.output_perform project c with ⟨hok, hout⟩ | ⟨⟨refusal, herr⟩, hout⟩ <;>
    rcases o.output_perform project' d with ⟨hok', hout'⟩ | ⟨⟨refusal', herr'⟩, hout'⟩
  · rw [hout, hout']
  · exact absurd (hok.symm.trans (h.trans herr')) nofun
  · exact absurd (herr.symm.trans (h.trans hok')) nofun
  · rw [hout, hout']

end Two

/-- A move returns, or is refused because something does not exist. -/
def Answers (outcome : Except Refusal Unit) : Prop :=
  outcome = .ok () ∨ ∃ message, outcome = .error (.notFound message)

/-- Two moves come to the same in both orders. -/
structure Commute (move₁ move₂ : Client → Moved) (c : Client) : Prop where
  /-- Both orders leave the same buckets. -/
  buckets : (move₂ (move₁ c).client).client.buckets.toMap =
    (move₁ (move₂ c).client).client.buckets.toMap
  /-- The one ends and prints the same before and after the other. -/
  first : (move₁ c).outcome = (move₁ (move₂ c).client).outcome ∧
    (move₁ c).output = (move₁ (move₂ c).client).output
  /-- The other ends and prints the same after and before the one. -/
  second : (move₂ (move₁ c).client).outcome = (move₂ c).outcome ∧
    (move₂ (move₁ c).client).output = (move₂ c).output

/-- A move does the same to its own column before and after a move of another name. -/
theorem acts_after {o o' : MoveOrder} (project project' : Option Value) {c : Client}
    (h : c.failing = none) (hne : o.name ≠ o'.name) :
    (o.perform project c).client.buckets.column o.name =
        (o.perform project (o'.perform project' c).client).client.buckets.column o.name ∧
      (o.perform project c).outcome =
        (o.perform project (o'.perform project' c).client).outcome := by
  have hother := o'.acts_perform project' h
  exact (o.acts_perform project h).congr (o.acts_perform project hother.stillOpen)
    (hother.other o.name hne).symm

theorem commute_of_ne {o₁ o₂ : MoveOrder} (project₁ project₂ : Option Value) {c : Client}
    (h : c.failing = none) (hne : o₁.name ≠ o₂.name) :
    Commute (o₁.perform project₁) (o₂.perform project₂) c := by
  have h₁ := o₁.acts_perform project₁ h
  have h₂ := o₂.acts_perform project₂ h
  have h₁₂ := o₂.acts_perform project₂ h₁.stillOpen
  have h₂₁ := o₁.acts_perform project₁ h₂.stillOpen
  obtain ⟨hcol₁, hout₁⟩ := acts_after project₁ project₂ h hne
  obtain ⟨hcol₂, hout₂⟩ := acts_after project₂ project₁ h hne.symm
  refine ⟨Buckets.toMap_ext fun n => ?_, ⟨hout₁, output_perform_congr hout₁⟩,
    ⟨hout₂.symm, output_perform_congr hout₂.symm⟩⟩
  by_cases hn₁ : n = o₁.name
  · rw [hn₁, h₁₂.other _ hne, hcol₁]
  · by_cases hn₂ : n = o₂.name
    · rw [hn₂, h₂₁.other _ hne.symm, hcol₂]
    · rw [h₁₂.other n hn₂, h₁.other n hn₁, h₂₁.other n hn₁, h₂.other n hn₂]

/-- A move into a bucket that did not have the name is undone by the move back. -/
theorem perform_reverse {o : MoveOrder} (project project' : Option Value) {c : Client}
    (h : c.failing = none) (hne : o.source ≠ o.target)
    (hok : (o.perform project c).outcome = .ok ())
    (hfree : c.buckets.content? o.target o.name = none) :
    (o.reverse.perform project' (o.perform project c).client).outcome = .ok () ∧
      (o.reverse.perform project' (o.perform project c).client).client.buckets.toMap =
        c.buckets.toMap := by
  have hthere := o.acts_perform project h
  have hback := o.reverse.acts_perform project' hthere.stillOpen
  have hown := hback.own
  have hundo := o.onColumn_reverse hne (hthere.outcome_eq.symm.trans hok)
    ((c.buckets.content?_eq_join o.target o.name).symm.trans hfree)
  rw [show o.reverse.name = o.name from rfl, hthere.column_eq, hundo, Prod.mk.injEq] at hown
  refine ⟨hown.2, Buckets.toMap_ext fun n => ?_⟩
  by_cases hn : n = o.name
  · rw [hn, hown.1]
  · rw [hback.other n hn, hthere.other n hn]

/-- **Moves of different objects commute, and a move can be undone.**  In any state of the
buckets, with no call set to fail: two moves of different names, between whatever buckets,
leave the same buckets in both orders, and each of them returns, or is refused because
something does not exist, as it would alone.  A move between different buckets that returns,
when the target did not have the name, is undone by the move back. -/
theorem moves_commute (c : Client) (h : c.failing = none) :
    (∀ (o₁ o₂ : MoveOrder) (project₁ project₂ : Option Value), o₁.name ≠ o₂.name →
      Commute (o₁.perform project₁) (o₂.perform project₂) c ∧
        Answers (o₁.perform project₁ c).outcome ∧ Answers (o₂.perform project₂ c).outcome) ∧
      ∀ (o : MoveOrder) (project project' : Option Value), o.source ≠ o.target →
        (o.perform project c).outcome = .ok () → c.buckets.content? o.target o.name = none →
        (o.reverse.perform project' (o.perform project c).client).outcome = .ok () ∧
          (o.reverse.perform project' (o.perform project c).client).client.buckets.toMap =
            c.buckets.toMap := by
  have hanswers (o : MoveOrder) (project : Option Value) :
      Answers (o.perform project c).outcome := by
    rw [(o.acts_perform project h).outcome_eq]
    exact o.onColumn_outcome _
  refine ⟨fun o₁ o₂ project₁ project₂ hne => ⟨commute_of_ne project₁ project₂ h hne,
    hanswers o₁ project₁, hanswers o₂ project₂⟩, ?_⟩
  intro o project project' hne hok hfree
  exact perform_reverse project project' h hne hok hfree

/-- Three objects in two buckets, one name in both. -/
def crowded : Client := ⟨[("a", [("x", "1"), ("y", "2")]), ("b", [("y", "3")])], [], none⟩

/-- The second move overwrites an object of the target, and the first can be undone. -/
theorem moves_commute_crowded :
    crowded.failing = none ∧
      Commute ((MoveOrder.mk "a" "x" "b").perform none)
        ((MoveOrder.mk "a" "y" "b").perform (some (.text "p"))) crowded ∧
      ((MoveOrder.mk "a" "y" "b").perform none
        ((MoveOrder.mk "a" "x" "b").perform none crowded).client).client.buckets =
          ([("a", []), ("b", [("y", "2"), ("x", "1")])] : Buckets) ∧
      ((MoveOrder.mk "b" "x" "a").perform none
        ((MoveOrder.mk "a" "x" "b").perform none crowded).client).client.buckets.toMap =
          crowded.buckets.toMap := by
  have hopen : crowded.failing = none := rfl
  obtain ⟨hcommute, hreverse⟩ := moves_commute crowded hopen
  have hback := hreverse ⟨"a", "x", "b"⟩ none none (by decide) rfl rfl
  exact ⟨hopen, (hcommute ⟨"a", "x", "b"⟩ ⟨"a", "y", "b"⟩ none (some (.text "p")) (by decide)).1,
    rfl, hback.2⟩

end MoveOrder
end Storage
end MachineCatalog
