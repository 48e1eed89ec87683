/-
# Reading streams with a fault

A stream that has something wrong behind its text has no value, however little of the text is
needed for one (`Source.Faulty.readSingle_ne_ok`): after the last document a reader looks for the
end of the stream, and it never comes to it.  So only a file that is in UTF-8 to its end, and of
characters that may stand in a stream, has a value (`isStream_of_readSingle`), and the same holds
when all documents are read (`isStream_of_readAll`).

What carries the proof is that every reader stays before the fault (`Reader.Keeps`); the readers
of nodes, which call each other, do so by induction on their fuel (`Reader.NodesStay`).
-/

import MachineCatalog.Proofs.Yaml.TokenQueue
import MachineCatalog.Yaml.Stream

namespace MachineCatalog
namespace Yaml
namespace Reader

/-- Before a fault, what the reader returns has the property, and the reader stays before the
fault. -/
def Keeps {α : Type} (Q : α → Prop) (m : Reader α) : Prop :=
  ∀ r : Reading, r.queue.Faulty → Returns (fun x => Q x.1 ∧ x.2.queue.Faulty) (m.run r)

/-- The reader stays before a fault, whatever it returns. -/
abbrev Stays {α : Type} (m : Reader α) : Prop := Keeps (fun _ => True) m

section Keeps

variable {α β : Type} {P : β → Prop} {Q : α → Prop} {m n : Reader β} {f : β → Reader α}

theorem keeps_pure {a : α} (h : Q a) : Keeps Q (pure a) := fun _ hr => returns_ok ⟨h, hr⟩

theorem stays_pure (a : α) : Stays (pure a) := keeps_pure trivial

theorem keeps_throw (p : Problem) : Keeps Q (throw p : Reader α) := fun _ _ => returns_error p

theorem keeps_fail : Keeps Q fail := keeps_throw _

theorem Keeps.bind (hm : Keeps P m) (hf : ∀ b, P b → Keeps Q (f b)) : Keeps Q (m >>= f) :=
  fun r hr => (hm r hr).bind fun x hx => hf x.1 hx.1 x.2 hx.2

/-- What the first reader returns need not be known. -/
theorem Keeps.then (hm : Keeps P m) (hf : ∀ b, Keeps Q (f b)) : Keeps Q (m >>= f) :=
  hm.bind fun b _ => hf b

theorem keeps_ite {p : Prop} [Decidable p] (hm : Keeps P m) (hn : Keeps P n) :
    Keeps P (if p then m else n) := by
  split_ifs
  · exact hm
  · exact hn

/-- One of two readers, then a third. -/
theorem Keeps.orElse {p : Prop} [Decidable p] (hm : Keeps P m) (hn : Keeps P n)
    (hf : ∀ b, Keeps Q (f b)) : Keeps Q (if p then m >>= f else n >>= f) :=
  keeps_ite (hm.then hf) (hn.then hf)

/-- Something may be read first. -/
theorem Keeps.after {p : Prop} [Decidable p] {m : Reader Unit} {f : Unit → Reader α}
    (hm : Stays m) (hf : Keeps Q (f ())) :
    Keeps Q (if p then m >>= f else f ()) :=
  keeps_ite (hm.then fun _ => hf) hf

theorem stays_get : Stays (get : Reader Reading) := fun _ hr => returns_ok ⟨trivial, hr⟩

theorem stays_modify {g : Reading → Reading} (hg : ∀ r, r.queue.Faulty → (g r).queue.Faulty) :
    Stays (modify g : Reader Unit) := fun r hr => returns_ok ⟨trivial, hg r hr⟩

theorem stays_lift (x : Except Problem α) : Stays (liftM x : Reader α) :=
  fun _ hr => returns_bind fun _ _ => returns_ok ⟨trivial, hr⟩

end Keeps

/-! ### Tokens -/

theorem run_peek (r : Reading) :
    peek.run r = r.queue.settle >>= fun s =>
      match s.ahead with
      | t :: _ => .ok (t, { r with queue := s })
      | [] => .error .malformed := by
  show (r.queue.settle >>= fun s => .ok (s, r)) >>= _ = _
  cases r.queue.settle with
  | error p => rfl
  | ok s =>
    obtain ⟨cursor, ahead⟩ := s
    cases ahead <;> rfl

/-- **The next token is not the end of the stream.** -/
theorem keeps_peek : Keeps (· ≠ .streamEnd) peek := by
  intro r hr
  rw [run_peek]
  refine hr.settle.bind fun s hs => ?_
  split
  · rename_i t rest hahead
    refine returns_ok ⟨?_, hs⟩
    rintro rfl
    exact hs.ahead (hahead ▸ List.mem_cons_self)
  · exact returns_error _

theorem stays_drop : Stays drop := stays_modify fun _ hr => hr.take

theorem stays_accept (t : Token) : Stays (accept t) :=
  keeps_peek.then fun _ => keeps_ite (stays_drop.then fun _ => stays_pure _) (stays_pure _)

theorem stays_expect (t : Token) : Stays (expect t) :=
  (stays_accept t).then fun _ => keeps_ite keeps_fail (stays_pure _)

/-! ### Nodes -/

theorem stays_add (anchor : Option String) (n : Node) : Stays (add anchor n) :=
  stays_get.then fun _ => Keeps.then (stays_modify fun _ hr => hr) fun _ => stays_pure _

theorem stays_addEmpty : Stays addEmpty := stays_add _ _

theorem stays_addCollection (anchor : Option String) (tag : Tag) (usual : Content)
    {content : Reader Content} (h : Stays content) :
    Stays (addCollection anchor tag usual content) :=
  (stays_add _ _).then fun _ => h.then fun _ =>
    Keeps.then (stays_modify fun _ hr => hr) fun _ => stays_pure _

theorem stays_aliased (name : String) : Stays (aliased name) := by
  refine stays_get.then fun r => ?_
  split
  · exact stays_pure _
  · exact keeps_fail

theorem stays_tagName (handle : Option String) (suffix : String) :
    Stays (tagName handle suffix) := by
  unfold tagName
  split
  · exact stays_pure _
  · refine stays_get.then fun r => ?_
    split
    · exact stays_pure _
    · exact keeps_fail

theorem stays_anchor? : Stays anchor? := by
  refine keeps_peek.then fun t => ?_
  split
  · exact stays_drop.then fun _ => stays_pure _
  · exact stays_pure _

theorem stays_tag? : Stays tag? := by
  refine keeps_peek.then fun t => ?_
  split
  · exact stays_drop.then fun _ => stays_pure _
  · exact stays_pure _

theorem stays_properties : Stays properties := by
  refine stays_anchor?.then fun anchor => ?_
  split
  case' h_1 => refine stays_tag?.then fun _ => (stays_pure _).then fun p => ?_
  case' h_2 =>
    refine stays_tag?.then fun tag => ?_
    split
    case' h_1 => refine stays_anchor?.then fun _ => (stays_pure _).then fun p => ?_
    case' h_2 => refine (stays_pure _).then fun p => ?_
  -- Whatever was found, the name of the tag comes last.
  all_goals
    obtain ⟨anchor, _ | ⟨handle, suffix⟩⟩ := p
    · exact stays_pure _
    · exact (stays_tagName handle suffix).then fun _ => stays_pure _

theorem stays_checkAnchor (anchor : Option String) : Stays (checkAnchor anchor) := by
  unfold checkAnchor
  split
  · exact stays_pure _
  · exact stays_get.then fun _ => keeps_ite keeps_fail (stays_pure _)

theorem stays_start (inBlock indentless : Bool) : Stays (start inBlock indentless) := by
  refine keeps_peek.then fun t => ?_
  split
  all_goals exact stays_pure _

/-- The readers of nodes with this fuel stay before a fault. -/
structure NodesStay (fuel : Nat) : Prop where
  node : ∀ depth inBlock indentless, Stays (node depth fuel inBlock indentless)
  blockItems : ∀ depth, Stays (blockItems depth fuel)
  indentlessItems : ∀ depth, Stays (indentlessItems depth fuel)
  blockEntries : ∀ depth, Stays (blockEntries depth fuel)
  blockValue : ∀ depth, Stays (blockValue depth fuel)
  flowValue : ∀ depth closing, Stays (flowValue depth fuel closing)
  flowKey : ∀ depth closing, Stays (flowKey depth fuel closing)
  flowItems : ∀ depth first, Stays (flowItems depth fuel first)
  flowEntries : ∀ depth first, Stays (flowEntries depth fuel first)

section NodesStay

variable {fuel : Nat} (h : NodesStay fuel)
include h

theorem NodesStay.node_succ (depth : Nat) (inBlock indentless : Bool) :
    Stays (Reader.node depth (fuel + 1) inBlock indentless) := by
  rw [Reader.node]
  refine Keeps.after (keeps_throw _) ?_
  refine keeps_peek.then fun t => ?_
  split
  · exact stays_drop.then fun _ => stays_aliased _
  · refine stays_properties.then fun p => (stays_start _ _).then fun start => ?_
    -- The content of a collection, after the checks in front of it.
    have hsequence {items : Reader (List NodeId)} (hitems : Stays items) :
        Stays (do return Content.sequence (← items)) := hitems.then fun _ => stays_pure _
    have hmapping {entries : Reader (List (NodeId × NodeId))} (hentries : Stays entries) :
        Stays (do return Content.mapping (← entries)) := hentries.then fun _ => stays_pure _
    dsimp only
    split
    · exact Keeps.after keeps_fail ((stays_checkAnchor _).then fun _ => stays_add _ _)
    · exact stays_drop.then fun _ => (stays_checkAnchor _).then fun _ => stays_add _ _
    · exact (stays_checkAnchor _).then fun _ =>
        stays_addCollection _ _ _ (hsequence (h.indentlessItems _))
    · exact stays_drop.then fun _ => (stays_checkAnchor _).then fun _ =>
        stays_addCollection _ _ _ (hsequence (h.flowItems _ _))
    · exact stays_drop.then fun _ => (stays_checkAnchor _).then fun _ =>
        stays_addCollection _ _ _ (hmapping (h.flowEntries _ _))
    · exact stays_drop.then fun _ => (stays_checkAnchor _).then fun _ =>
        stays_addCollection _ _ _ (hsequence (h.blockItems _))
    · exact stays_drop.then fun _ => (stays_checkAnchor _).then fun _ =>
        stays_addCollection _ _ _ (hmapping (h.blockEntries _))

theorem NodesStay.blockItems_succ (depth : Nat) :
    Stays (Reader.blockItems depth (fuel + 1)) := by
  rw [Reader.blockItems]
  refine (stays_accept _).then fun _ => keeps_ite ?_ ((stays_expect _).then fun _ => stays_pure _)
  refine keeps_peek.then fun next => Keeps.orElse stays_addEmpty (h.node _ _ _) fun n => ?_
  exact (h.blockItems _).then fun _ => stays_pure _

theorem NodesStay.indentlessItems_succ (depth : Nat) :
    Stays (Reader.indentlessItems depth (fuel + 1)) := by
  rw [Reader.indentlessItems]
  refine (stays_accept _).then fun _ => keeps_ite ?_ (stays_pure _)
  refine keeps_peek.then fun next => Keeps.orElse stays_addEmpty (h.node _ _ _) fun n => ?_
  exact (h.indentlessItems _).then fun _ => stays_pure _

theorem NodesStay.blockEntries_succ (depth : Nat) :
    Stays (Reader.blockEntries depth (fuel + 1)) := by
  rw [Reader.blockEntries]
  refine (stays_accept _).then fun _ => keeps_ite ?_ ((stays_expect _).then fun _ => stays_pure _)
  refine keeps_peek.then fun next => Keeps.orElse stays_addEmpty (h.node _ _ _) fun k => ?_
  exact (h.blockValue _).then fun _ => (h.blockEntries _).then fun _ => stays_pure _

theorem NodesStay.blockValue_succ (depth : Nat) :
    Stays (Reader.blockValue depth (fuel + 1)) := by
  rw [Reader.blockValue]
  refine (stays_accept _).then fun _ => keeps_ite ?_ stays_addEmpty
  exact keeps_peek.then fun next => keeps_ite stays_addEmpty (h.node _ _ _)

theorem NodesStay.flowValue_succ (depth : Nat) (closing : Token) :
    Stays (Reader.flowValue depth (fuel + 1) closing) := by
  rw [Reader.flowValue]
  refine (stays_accept _).then fun _ => keeps_ite ?_ stays_addEmpty
  exact keeps_peek.then fun next => keeps_ite stays_addEmpty (h.node _ _ _)

theorem NodesStay.flowKey_succ (depth : Nat) (closing : Token) :
    Stays (Reader.flowKey depth (fuel + 1) closing) := by
  rw [Reader.flowKey]
  exact keeps_peek.then fun next => keeps_ite stays_addEmpty (h.node _ _ _)

theorem NodesStay.flowItems_succ (depth : Nat) (first : Bool) :
    Stays (Reader.flowItems depth (fuel + 1) first) := by
  rw [Reader.flowItems]
  refine (stays_accept _).then fun _ => keeps_ite (stays_pure _) ?_
  refine Keeps.after (stays_expect _) ?_
  refine (stays_accept _).then fun _ => keeps_ite (stays_pure _) ?_
  refine (stays_accept _).then fun _ => Keeps.orElse ?_ (h.node _ _ _) fun n => ?_
  · refine stays_addCollection _ _ _ ((h.flowKey _ _).then fun k => ?_)
    exact (h.flowValue _ _).then fun _ => stays_pure _
  · exact (h.flowItems _ _).then fun _ => stays_pure _

theorem NodesStay.flowEntries_succ (depth : Nat) (first : Bool) :
    Stays (Reader.flowEntries depth (fuel + 1) first) := by
  rw [Reader.flowEntries]
  refine (stays_accept _).then fun _ => keeps_ite (stays_pure _) ?_
  refine Keeps.after (stays_expect _) ?_
  refine (stays_accept _).then fun _ => keeps_ite (stays_pure _) ?_
  have hlast (entry : NodeId × NodeId) :
      Stays (do return entry :: (← Reader.flowEntries depth fuel false)) :=
    (h.flowEntries _ _).then fun _ => stays_pure _
  refine (stays_accept _).then fun _ => keeps_ite ?_ ?_
  · exact (h.flowKey _ _).then fun _ => (h.flowValue _ _).then fun _ => (stays_pure _).then hlast
  · exact (h.node _ _ _).then fun _ => stays_addEmpty.then fun _ => (stays_pure _).then hlast

theorem NodesStay.succ : NodesStay (fuel + 1) where
  node := h.node_succ
  blockItems := h.blockItems_succ
  indentlessItems := h.indentlessItems_succ
  blockEntries := h.blockEntries_succ
  blockValue := h.blockValue_succ
  flowValue := h.flowValue_succ
  flowKey := h.flowKey_succ
  flowItems := h.flowItems_succ
  flowEntries := h.flowEntries_succ

end NodesStay

theorem nodesStay_zero : NodesStay 0 where
  node _ _ _ := by rw [Reader.node]; exact keeps_fail
  blockItems _ := by rw [Reader.blockItems]; exact keeps_fail
  indentlessItems _ := by rw [Reader.indentlessItems]; exact keeps_fail
  blockEntries _ := by rw [Reader.blockEntries]; exact keeps_fail
  blockValue _ := by rw [Reader.blockValue]; exact keeps_fail
  flowValue _ _ := by rw [Reader.flowValue]; exact keeps_fail
  flowKey _ _ := by rw [Reader.flowKey]; exact keeps_fail
  flowItems _ _ := by rw [Reader.flowItems]; exact keeps_fail
  flowEntries _ _ := by rw [Reader.flowEntries]; exact keeps_fail

theorem nodesStay (fuel : Nat) : NodesStay fuel := by
  induction fuel with
  | zero => exact nodesStay_zero
  | succ fuel ih => exact ih.succ

theorem stays_node (depth fuel : Nat) (inBlock indentless : Bool) :
    Stays (node depth fuel inBlock indentless) := (nodesStay fuel).node _ _ _

/-! ### Documents -/

theorem stays_fuel : Stays fuel := stays_get.then fun _ => stays_pure _

theorem stays_directives (fuel : Nat) (versioned : Bool) : Stays (directives fuel versioned) := by
  induction fuel generalizing versioned with
  | zero => exact keeps_fail
  | succ fuel ih =>
    rw [directives]
    refine keeps_peek.then fun t => ?_
    split
    · exact Keeps.after keeps_fail (stays_drop.then fun _ => ih _)
    · refine stays_get.then fun _ => Keeps.after keeps_fail ?_
      exact Keeps.then (stays_modify fun _ hr => hr) fun _ => stays_drop.then fun _ => ih _
    · exact stays_drop.then fun _ => ih _
    · exact stays_modify fun _ hr => hr

theorem stays_passEnds (fuel : Nat) : Stays (passEnds fuel) := by
  induction fuel with
  | zero => exact stays_pure _
  | succ fuel ih => exact (stays_accept _).then fun _ => keeps_ite ih (stays_pure _)

theorem stays_content : Stays content := by
  refine keeps_peek.then fun t => ?_
  split
  all_goals first | exact stays_addEmpty | exact stays_fuel.then fun _ => stays_node _ _ _ _

/-- **Before a fault the stream goes on with one more document**, or is malformed. -/
theorem keeps_opens : Keeps (· = true) opens := by
  refine stays_fuel.then fun _ => (stays_passEnds _).then fun _ => keeps_peek.bind fun t ht => ?_
  rw [if_neg ht]
  refine stays_fuel.then fun _ => (stays_directives _ _).then fun _ => ?_
  exact (stays_expect _).then fun _ => keeps_pure rfl

theorem stays_startsBare : Stays startsBare := by
  refine keeps_peek.then fun t => ?_
  split
  all_goals exact stays_pure _

theorem keeps_finish {content : Reader NodeId} (h : Stays content) :
    Keeps (· ≠ none) (finish content) :=
  h.then fun _ => (stays_accept _).then fun _ => stays_get.then fun _ => keeps_pure nofun

theorem keeps_document? (first : Bool) : Keeps (· ≠ none) (document? first) := by
  have hnext (bare : Bool) : Keeps (· ≠ none) (do
      if bare then
        modify fun r => { r with handles := usualHandles }
        finish (do node nestingLimit (← fuel) true false)
      else if ← opens then finish content
      else return none) := by
    refine keeps_ite ?_ (keeps_opens.bind fun b hb => ?_)
    · refine Keeps.then (stays_modify fun _ hr => hr) fun _ => keeps_finish ?_
      exact stays_fuel.then fun _ => stays_node _ _ _ _
    · rw [if_pos hb]
      exact keeps_finish stays_content
  refine Keeps.then (stays_modify fun _ hr => hr) fun _ => ?_
  exact Keeps.orElse stays_startsBare (stays_pure _) hnext

/-- **The end of the stream is not next.** -/
theorem keeps_expectEnd : Keeps (fun _ => False) expectEnd := by
  refine Keeps.then (stays_modify fun _ hr => hr) fun _ => keeps_opens.bind fun b hb => ?_
  rw [if_pos hb]
  exact keeps_fail

theorem keeps_single : Keeps (fun _ => False) single := by
  refine (keeps_document? _).bind fun document hdocument => ?_
  split
  · exact absurd rfl hdocument
  · exact keeps_expectEnd.bind fun _ => False.elim

theorem keeps_values (fuel : Nat) (first : Bool) : Keeps (fun _ => False) (values fuel first) := by
  induction fuel generalizing first with
  | zero => exact keeps_fail
  | succ fuel ih =>
    rw [values]
    refine (keeps_document? _).bind fun document hdocument => ?_
    split
    · exact absurd rfl hdocument
    · refine (stays_lift _).then fun _ => (ih false).bind fun _ => False.elim

end Reader

/-! ### Streams -/

section Source

variable {source : Source}

/-- Something is wrong behind the text of the source, and no NUL is in the text. -/
def Source.Faulty (source : Source) : Prop := source.beyond ≠ none ∧ '\x00' ∉ source.text

theorem Source.Faulty.start (h : source.Faulty) : (Reading.start source).queue.Faulty where
  cursor := ⟨h.1, rfl, h.2⟩
  ahead := nofun

/-- **With a fault behind it a stream has no value**, even when the fault is behind the only
document. -/
theorem Source.Faulty.readSingle_ne_ok (h : source.Faulty) (v : Value) :
    readSingle source ≠ .ok v := by
  intro hread
  obtain ⟨x, hx, -⟩ := (map_eq_ok_iff (f := Prod.fst)).1 hread
  exact (Reader.keeps_single _ h.start x hx).1

theorem Source.Faulty.readAll_ne_ok (h : source.Faulty) (vs : List Value) :
    readAll source ≠ .ok vs := by
  intro hread
  obtain ⟨x, hx, -⟩ := (map_eq_ok_iff (f := Prod.fst)).1 hread
  exact (Reader.keeps_values _ _ _ h.start x hx).1

end Source

/-! ### Files -/

/-- The file is in UTF-8, and holds only characters that may stand in a stream. -/
def IsStream (content : ByteArray) : Prop :=
  ∃ cs, Text.ofFile? content = some cs ∧ ∀ c ∈ cs, isStreamChar c = true

theorem readable_le (place : Nat) : Source.readable place ≤ place := by
  unfold Source.readable
  split_ifs
  · exact Nat.zero_le _
  · exact Nat.div_mul_le_self _ _

theorem isStreamChar_of_mem_ofChars {cs : List Char} {beyond : Option Problem} {c : Char}
    (hc : c ∈ (Source.ofChars cs beyond).text) : isStreamChar c = true := by
  unfold Source.ofChars at hc
  split at hc
  · rename_i hnone
    simpa using List.findIdx?_eq_none_iff.1 hnone c hc
  · rename_i place hplace
    obtain ⟨_, -, hbefore⟩ := List.findIdx?_eq_some_iff_getElem.1 hplace
    obtain ⟨i, hi, rfl⟩ := List.mem_take_iff_getElem.1 hc
    have hlt : i < place := Nat.lt_of_lt_of_le (Nat.lt_min.1 hi).1 (readable_le place)
    simpa using hbefore i hlt

theorem nul_notMem_ofChars (cs : List Char) (beyond : Option Problem) :
    '\x00' ∉ (Source.ofChars cs beyond).text := by
  intro hmem
  have hnul : isStreamChar '\x00' = false := by decide
  rw [isStreamChar_of_mem_ofChars hmem] at hnul
  cases hnul

theorem faulty_ofChars {cs : List Char} {beyond : Option Problem}
    (h : beyond = none → ¬∀ c ∈ cs, isStreamChar c = true) :
    (Source.ofChars cs beyond).Faulty := by
  refine ⟨?_, nul_notMem_ofChars cs beyond⟩
  unfold Source.ofChars
  split
  · rename_i hnone
    intro hbeyond
    refine h hbeyond fun c hc => ?_
    simpa using List.findIdx?_eq_none_iff.1 hnone c hc
  · nofun

theorem faulty_ofFile {content : ByteArray} (h : ¬IsStream content) :
    (Source.ofFile content).Faulty := by
  unfold Source.ofFile
  split
  · rename_i cs hcs
    have htext : Text.ofFile? content = some cs := by rw [Text.ofFile?, hcs]
    exact faulty_ofChars fun _ hchars => h ⟨cs, htext, hchars⟩
  · exact faulty_ofChars nofun

/-- **Only a file that is wholly a stream has a value.** -/
theorem isStream_of_readSingle {content : ByteArray} {v : Value}
    (h : readSingle (.ofFile content) = .ok v) : IsStream content :=
  Classical.not_not.1 fun hstream => (faulty_ofFile hstream).readSingle_ne_ok v h

theorem isStream_of_readAll {content : ByteArray} {vs : List Value}
    (h : readAll (.ofFile content) = .ok vs) : IsStream content :=
  Classical.not_not.1 fun hstream => (faulty_ofFile hstream).readAll_ne_ok vs h

end Yaml
end MachineCatalog
