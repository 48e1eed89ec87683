/-
# Strict and lenient loading

Documents offer wire forms, each shape those that it holds (`Loading.offered`).  Loading
accepts or rejects them one after the other.  Strict loading ends with the first rejection,
and returns what lenient loading returns when there is none; lenient loading gives
a notice for each rejection instead.  Both take documents one by one, so what was
loaded before stays (`Loading.loadDocuments_append`).

What one document does is `Loading.loadDocument_cases`.  What a run does follows
by induction over the wire forms and over the documents.
-/

import MachineCatalog.Proofs.Loading.Offers
import MachineCatalog.Proofs.Notice
import MachineCatalog.Proofs.WireForm.Rejecting

namespace MachineCatalog

/-- Whether a notice is about a machine type that is left out. -/
def Notice.isSkipped : Notice → Bool
  | .skipped _ _ => true
  | _ => false

/-- Whether a notice is about a document of no known shape. -/
def Notice.isUnrecognised : Notice → Bool
  | .unrecognised _ => true
  | _ => false

namespace Loading

/-! ### One document -/

/-- **What a document does**, in either mode: it ends the loading with a defect, it is
not recognised, or what it offers is loaded. -/
theorem loadDocument_cases (doc : Value) :
    (∃ what, ∀ skip source, loadDocument skip source doc = ⟨[], .error (.defect what)⟩) ∨
      (offered doc = [] ∧ isUnrecognised doc = true ∧
        ∀ skip source, loadDocument skip source doc = ⟨[.unrecognised source], .ok []⟩) ∨
      (isUnrecognised doc = false ∧
        ∀ skip source, loadDocument skip source doc = loadPayloads skip source (offered doc)) := by
  rcases detectShape_cases doc with ⟨shape, hs⟩ | hs
  · by_cases hu : shape = .unknown
    · subst hu
      refine .inr (.inl ⟨?_, ?_, fun skip source => ?_⟩)
      · rw [offered, hs]
        rfl
      · rw [isUnrecognised, hs]
      · rw [loadDocument, hs]
        rfl
    · have hload (skip : Bool) (source : Text) : loadDocument skip source doc =
          (Noted.lift (payloads shape doc) >>= fun ps => loadPayloads skip source ps) := by
        rw [loadDocument, hs, Noted.lift_ok, Noted.bind_of_ok _ rfl]
        cases shape with
        | unknown => exact absurd rfl hu
        | _ => rfl
      rcases payloads_cases shape doc with ⟨ps, hp⟩ | ⟨items, hp⟩
      · have hholds : Holds doc ps := ⟨shape, hs, hu, hp⟩
        refine .inr (.inr ⟨hholds.isUnrecognised_eq, fun skip source => ?_⟩)
        rw [hload, hp, hholds.offered_eq]
        rfl
      · refine .inl ⟨.notScopes items, fun skip source => ?_⟩
        rw [hload, hp]
        rfl
  · refine .inl ⟨.longInteger, fun skip source => ?_⟩
    rw [loadDocument, hs]
    rfl

/-! ### One wire form -/

theorem loadPayloads_of_accepted {payload : Value} {m : MachineType}
    (h : MachineType.ofWire payload = .ok m) (skip : Bool) (source : Text) (rest : List Value) :
    loadPayloads skip source (payload :: rest) =
      Noted.append (pure [m]) (loadPayloads skip source rest) := by
  rw [loadPayloads, h]
  rfl

theorem loadPayloads_of_rejected {payload : Value} {why : Rejection}
    (h : MachineType.ofWire payload = .error (.rejected why)) (skip : Bool) (source : Text)
    (rest : List Value) :
    loadPayloads skip source (payload :: rest) =
      if skip then Noted.append ⟨[.skipped source why], .ok []⟩ (loadPayloads skip source rest)
      else ⟨[], .error (.rejected why)⟩ := by
  rw [loadPayloads, h]
  cases skip with
  | true =>
    rw [if_pos rfl, Noted.append_of_ok _ rfl]
    obtain ⟨notices, outcome⟩ := loadPayloads true source rest
    cases outcome <;> rfl
  | false =>
    have hr := (MachineType.reportable_ofWire payload why h).reject_eq (α := List MachineType)
    simp only [hr]
    rfl

theorem loadPayloads_of_defect {payload : Value} {what : Defect}
    (h : MachineType.ofWire payload = .error (.defect what)) (skip : Bool) (source : Text)
    (rest : List Value) :
    loadPayloads skip source (payload :: rest) = ⟨[], .error (.defect what)⟩ := by
  rw [loadPayloads, h]
  rfl

/-! ### The wire forms of one document -/

/-- What is loaded of a wire form. -/
def accepted? (payload : Value) : Option MachineType := (MachineType.ofWire payload).toOption

/-- The notice that a rejected wire form gives in lenient loading. -/
def skipped? (source : Text) (payload : Value) : Option Notice :=
  match MachineType.ofWire payload with
  | .error (.rejected why) => some (.skipped source why)
  | _ => none

/-- The first wire form that is not accepted is rejected for the given reason. -/
def FirstRejected (why : Rejection) (ps : List Value) : Prop :=
  ∃ before p after, ps = before ++ p :: after ∧
    (∀ q ∈ before, ∃ m, MachineType.ofWire q = .ok m) ∧
    MachineType.ofWire p = .error (.rejected why)

theorem FirstRejected.append_right {why : Rejection} {ps : List Value} (h : FirstRejected why ps)
    (qs : List Value) : FirstRejected why (ps ++ qs) := by
  obtain ⟨before, p, after, rfl, hb, hp⟩ := h
  exact ⟨before, p, after ++ qs, by simp, hb, hp⟩

theorem FirstRejected.append_left {why : Rejection} {qs : List Value} (h : FirstRejected why qs)
    {ps : List Value} (hps : ∀ p ∈ ps, ∃ m, MachineType.ofWire p = .ok m) :
    FirstRejected why (ps ++ qs) := by
  obtain ⟨before, p, after, rfl, hb, hp⟩ := h
  refine ⟨ps ++ before, p, after, by simp, ?_, hp⟩
  rintro q hq
  rcases List.mem_append.1 hq with hq | hq
  · exact hps q hq
  · exact hb q hq

/-- Strict loading that returns has accepted everything, and lenient loading does the
same. -/
theorem loadPayloads_strict_ok {source : Text} {ps : List Value} {notices : List Notice}
    {ms : List MachineType} (h : loadPayloads false source ps = ⟨notices, .ok ms⟩) :
    loadPayloads true source ps = ⟨notices, .ok ms⟩ ∧
      ∀ p ∈ ps, ∃ m, MachineType.ofWire p = .ok m := by
  induction ps generalizing notices ms with
  | nil => exact ⟨h, by simp⟩
  | cons p ps ih =>
    cases hp : MachineType.ofWire p with
    | ok m =>
      rw [loadPayloads_of_accepted hp] at h ⊢
      obtain ⟨ns, as, ns', bs, h₁, h₂, rfl, rfl⟩ := Noted.append_eq_ok_iff.1 h
      obtain ⟨ht, hall⟩ := ih h₂
      refine ⟨Noted.append_eq_ok_iff.2 ⟨_, _, _, _, h₁, ht, rfl, rfl⟩, ?_⟩
      exact List.forall_mem_cons.2 ⟨⟨m, hp⟩, hall⟩
    | error e =>
      cases e with
      | rejected why => simp [loadPayloads_of_rejected hp] at h
      | defect what => simp [loadPayloads_of_defect hp] at h

/-- A rejection that ends strict loading is the first. -/
theorem loadPayloads_strict_rejected {source : Text} {ps : List Value} {why : Rejection}
    (h : (loadPayloads false source ps).outcome = .error (.rejected why)) :
    FirstRejected why ps := by
  induction ps with
  | nil => exact absurd h nofun
  | cons p ps ih =>
    cases hp : MachineType.ofWire p with
    | ok m =>
      rw [loadPayloads_of_accepted hp, Noted.append_outcome_eq_error_iff] at h
      rcases h with h | ⟨-, h⟩
      · exact absurd h nofun
      · show FirstRejected why ([p] ++ ps)
        exact (ih h).append_left (by simpa using ⟨m, hp⟩)
    | error e =>
      cases e with
      | rejected why' =>
        rw [loadPayloads_of_rejected hp, if_neg Bool.false_ne_true] at h
        obtain rfl := Failure.rejected.inj (Except.error.inj h)
        exact ⟨[], p, ps, rfl, by simp, hp⟩
      | defect what =>
        rw [loadPayloads_of_defect hp] at h
        exact absurd h nofun

/-- Lenient loading that returns gives what is accepted, with a notice for all else. -/
theorem loadPayloads_lenient_ok {source : Text} {ps : List Value} {notices : List Notice}
    {ms : List MachineType} (h : loadPayloads true source ps = ⟨notices, .ok ms⟩) :
    ms = ps.filterMap accepted? ∧ notices = ps.filterMap (skipped? source) ∧
      ms.length + notices.length = ps.length := by
  induction ps generalizing notices ms with
  | nil =>
    cases h
    exact ⟨rfl, rfl, rfl⟩
  | cons p ps ih =>
    cases hp : MachineType.ofWire p with
    | ok m =>
      rw [loadPayloads_of_accepted hp] at h
      obtain ⟨ns, as, ns', bs, h₁, h₂, rfl, rfl⟩ := Noted.append_eq_ok_iff.1 h
      obtain ⟨rfl, rfl, hlen⟩ := ih h₂
      cases h₁
      have ha : accepted? p = some m := by rw [accepted?, hp]; rfl
      have hs : skipped? source p = none := by rw [skipped?, hp]
      rw [List.filterMap_cons_some ha, List.filterMap_cons_none hs]
      refine ⟨rfl, rfl, ?_⟩
      simp only [List.nil_append, List.length_cons, List.singleton_append]
      omega
    | error e =>
      cases e with
      | rejected why =>
        rw [loadPayloads_of_rejected hp, if_pos rfl] at h
        obtain ⟨ns, as, ns', bs, h₁, h₂, rfl, rfl⟩ := Noted.append_eq_ok_iff.1 h
        obtain ⟨rfl, rfl, hlen⟩ := ih h₂
        cases h₁
        have ha : accepted? p = none := by rw [accepted?, hp]; rfl
        have hs : skipped? source p = some (.skipped source why) := by rw [skipped?, hp]
        rw [List.filterMap_cons_none ha, List.filterMap_cons_some hs]
        refine ⟨rfl, rfl, ?_⟩
        simp only [List.nil_append, List.length_cons, List.singleton_append]
        omega
      | defect what => simp [loadPayloads_of_defect hp] at h

/-! ### Documents in order -/

theorem loadDocuments_cons (skip : Bool) (source : Text) (doc : Value) (docs : List Value) :
    loadDocuments skip source (doc :: docs) =
      Noted.append (loadDocument skip source doc) (loadDocuments skip source docs) := rfl

/-- **Documents are loaded one by one.** -/
theorem loadDocuments_append (skip : Bool) (source : Text) (docs more : List Value) :
    loadDocuments skip source (docs ++ more) =
      Noted.append (loadDocuments skip source docs) (loadDocuments skip source more) := by
  induction docs with
  | nil => exact (Noted.pure_nil_append _).symm
  | cons doc docs ih =>
    rw [List.cons_append, loadDocuments_cons, loadDocuments_cons, ih, Noted.append_assoc]

theorem loadDocuments_strict_ok {source : Text} {docs : List Value} {notices : List Notice}
    {ms : List MachineType} (h : loadDocuments false source docs = ⟨notices, .ok ms⟩) :
    loadDocuments true source docs = ⟨notices, .ok ms⟩ := by
  induction docs generalizing notices ms with
  | nil => exact h
  | cons doc docs ih =>
    rw [loadDocuments_cons] at h ⊢
    obtain ⟨ns, as, ns', bs, h₁, h₂, rfl, rfl⟩ := Noted.append_eq_ok_iff.1 h
    refine Noted.append_eq_ok_iff.2 ⟨ns, as, ns', bs, ?_, ih h₂, rfl, rfl⟩
    rcases loadDocument_cases doc with ⟨what, hl⟩ | ⟨-, -, hl⟩ | ⟨-, hl⟩
    · simp [hl] at h₁
    · rwa [hl] at h₁ ⊢
    · rw [hl] at h₁ ⊢
      exact (loadPayloads_strict_ok h₁).1

/-- What a document offers is accepted when strict loading of it returns. -/
theorem accepted_of_loadDocument {source : Text} {doc : Value} {ms : List MachineType}
    (h : (loadDocument false source doc).outcome = .ok ms) :
    ∀ p ∈ offered doc, ∃ m, MachineType.ofWire p = .ok m := by
  rcases loadDocument_cases doc with ⟨what, hl⟩ | ⟨ho, -, -⟩ | ⟨-, hl⟩
  · simp [hl] at h
  · simp [ho]
  · rw [hl] at h
    obtain ⟨notices, hn⟩ : ∃ notices, loadPayloads false source (offered doc) = ⟨notices, .ok ms⟩ :=
      ⟨_, by rw [← h]⟩
    exact (loadPayloads_strict_ok hn).2

theorem loadDocuments_strict_rejected {source : Text} {docs : List Value} {why : Rejection}
    (h : (loadDocuments false source docs).outcome = .error (.rejected why)) :
    FirstRejected why (docs.flatMap offered) := by
  induction docs with
  | nil => exact absurd h nofun
  | cons doc docs ih =>
    rw [loadDocuments_cons, Noted.append_outcome_eq_error_iff] at h
    rw [List.flatMap_cons]
    rcases h with h | ⟨⟨ms, hms⟩, h⟩
    · rcases loadDocument_cases doc with ⟨what, hl⟩ | ⟨-, -, hl⟩ | ⟨-, hl⟩
      · simp [hl] at h
      · simp [hl] at h
      · rw [hl] at h
        exact (loadPayloads_strict_rejected h).append_right _
    · exact (ih h).append_left (accepted_of_loadDocument hms)

/-- What lenient loading makes of wire forms that are offered in documents, of which
some are not recognised.  What a recognised document offers is said of its shape
(`Holds.offered_eq`): the mappings in an array (`holds_array`), in a list response (`holds_list`),
in all scopes of an aggregated response (`holds_aggregatedList`), or the document itself
(`holds_single`). -/
structure Accounts (source : Text) (docs : List Value) (notices : List Notice)
    (ms : List MachineType) : Prop where
  results : ms = (docs.flatMap offered).filterMap accepted?
  skipped : notices.filter Notice.isSkipped = (docs.flatMap offered).filterMap (skipped? source)
  total : ms.length + notices.countP Notice.isSkipped = (docs.flatMap offered).length
  unrecognised : notices.countP Notice.isUnrecognised = docs.countP isUnrecognised

theorem Accounts.append {source : Text} {docs more : List Value} {ns ns' : List Notice}
    {ms ms' : List MachineType} (h : Accounts source docs ns ms)
    (h' : Accounts source more ns' ms') :
    Accounts source (docs ++ more) (ns ++ ns') (ms ++ ms') := by
  have ht := h.total
  have ht' := h'.total
  constructor
  · rw [List.flatMap_append, List.filterMap_append, h.results, h'.results]
  · rw [List.flatMap_append, List.filterMap_append, List.filter_append, h.skipped, h'.skipped]
  · rw [List.flatMap_append, List.length_append, List.length_append, List.countP_append]
    omega
  · rw [List.countP_append, List.countP_append, h.unrecognised, h'.unrecognised]

/-- The notices of skipped wire forms are all of one kind. -/
theorem isSkipped_of_mem {source : Text} {ps : List Value} {n : Notice}
    (h : n ∈ ps.filterMap (skipped? source)) : n.isSkipped = true ∧ n.isUnrecognised = false := by
  obtain ⟨p, -, hp⟩ := List.mem_filterMap.1 h
  unfold skipped? at hp
  split at hp
  · obtain rfl := Option.some.inj hp
    exact ⟨rfl, rfl⟩
  · exact absurd hp nofun

/-- One document is accounted for. -/
theorem accounts_loadDocument {source : Text} {doc : Value} {notices : List Notice}
    {ms : List MachineType} (h : loadDocument true source doc = ⟨notices, .ok ms⟩) :
    Accounts source [doc] notices ms := by
  rcases loadDocument_cases doc with ⟨what, hl⟩ | ⟨ho, hu, hl⟩ | ⟨hu, hl⟩
  · simp [hl] at h
  · rw [hl] at h
    cases h
    constructor <;> simp [ho, hu, Notice.isSkipped, Notice.isUnrecognised]
  · rw [hl] at h
    obtain ⟨hms, rfl, hlen⟩ := loadPayloads_lenient_ok h
    have hall : ∀ n ∈ (offered doc).filterMap (skipped? source), n.isSkipped = true :=
      fun n hn => (isSkipped_of_mem hn).1
    have hnone : ∀ n ∈ (offered doc).filterMap (skipped? source), ¬n.isUnrecognised = true :=
      fun n hn => by simp [(isSkipped_of_mem hn).2]
    constructor
    · rw [List.flatMap_singleton, hms]
    · rw [List.flatMap_singleton, List.filter_eq_self.2 hall]
    · rw [List.flatMap_singleton, List.countP_eq_length.2 hall, hlen]
    · rw [List.countP_eq_zero.2 hnone, List.countP_singleton, hu]
      rfl

theorem accounts_loadDocuments {source : Text} {docs : List Value} {notices : List Notice}
    {ms : List MachineType} (h : loadDocuments true source docs = ⟨notices, .ok ms⟩) :
    Accounts source docs notices ms := by
  induction docs generalizing notices ms with
  | nil =>
    cases h
    exact ⟨rfl, rfl, rfl, rfl⟩
  | cons doc docs ih =>
    rw [loadDocuments_cons] at h
    obtain ⟨ns, as, ns', bs, h₁, h₂, rfl, rfl⟩ := Noted.append_eq_ok_iff.1 h
    exact (accounts_loadDocument h₁).append (ih h₂)

/-- In either mode a machine type was loaded from a wire form that some document offers. -/
theorem exists_offered_of_mem {skip : Bool} {source : Text} {docs : List Value}
    {notices : List Notice} {ms : List MachineType} {m : MachineType}
    (h : loadDocuments skip source docs = ⟨notices, .ok ms⟩) (hm : m ∈ ms) :
    ∃ doc ∈ docs, ∃ p ∈ offered doc, MachineType.ofWire p = .ok m := by
  have hlenient : loadDocuments true source docs = ⟨notices, .ok ms⟩ := by
    cases skip with
    | false => exact loadDocuments_strict_ok h
    | true => exact h
  rw [(accounts_loadDocuments hlenient).results] at hm
  obtain ⟨p, hp, ha⟩ := List.mem_filterMap.1 hm
  obtain ⟨doc, hdoc, hp⟩ := List.mem_flatMap.1 hp
  refine ⟨doc, hdoc, p, hp, ?_⟩
  rw [accepted?] at ha
  cases hw : MachineType.ofWire p with
  | ok m' =>
    rw [hw] at ha
    exact congrArg Except.ok (Option.some.inj ha)
  | error e =>
    rw [hw] at ha
    cases ha

/-- **Strict and lenient loading agree.**  What strict loading returns, lenient loading
returns with the same notices.  A rejection that ends strict loading is that of the first
wire form that is rejected.  What lenient loading returns is what is accepted, in order,
and every wire form and every unrecognised document is accounted for.  Loading more
documents adds to what was loaded. -/
theorem strict_lenient_agree (source : Text) (docs : List Value) :
    (∀ notices ms, loadDocuments false source docs = ⟨notices, .ok ms⟩ →
        loadDocuments true source docs = ⟨notices, .ok ms⟩) ∧
      (∀ why, (loadDocuments false source docs).outcome = .error (.rejected why) →
        FirstRejected why (docs.flatMap offered)) ∧
      (∀ notices ms, loadDocuments true source docs = ⟨notices, .ok ms⟩ →
        Accounts source docs notices ms) ∧
      ∀ skip more notices ms, loadDocuments skip source docs = ⟨notices, .ok ms⟩ →
        loadDocuments skip source (docs ++ more) =
          ⟨notices ++ (loadDocuments skip source more).notices,
            (loadDocuments skip source more).outcome.map (ms ++ ·)⟩ := by
  refine ⟨fun _ _ => loadDocuments_strict_ok, fun _ => loadDocuments_strict_rejected,
    fun _ _ => accounts_loadDocuments, fun skip more notices ms h => ?_⟩
  rw [loadDocuments_append, h, Noted.append_of_ok _ rfl]

/-- What an aggregated response offers is accounted for, and so is a document of no shape. -/
theorem strict_lenient_agree_twoInScopes :
    loadDocuments true [] [onlyLink] = ⟨[], .ok [{ machineTypeId := ⟨"p", "z", "m"⟩ }]⟩ ∧
      FirstRejected (.malformedUrl (.text "projects/p") .machineType) [onlyLink, wrongLink] ∧
      offered twoInScopes = [onlyLink, wrongLink] ∧
      Accounts [] [twoInScopes, .null]
        [.skipped [] (.malformedUrl (.text "projects/p") .machineType), .unrecognised []]
        [{ machineTypeId := ⟨"p", "z", "m"⟩ }] := by
  have hok : loadDocuments false [] [onlyLink] =
      ⟨[], .ok [{ machineTypeId := ⟨"p", "z", "m"⟩ }]⟩ := rfl
  have hs : (loadDocuments false [] [twoInScopes]).outcome =
      .error (.rejected (.malformedUrl (.text "projects/p") .machineType)) := rfl
  have hl : loadDocuments true [] [twoInScopes] =
      ⟨[.skipped [] (.malformedUrl (.text "projects/p") .machineType)],
        .ok [{ machineTypeId := ⟨"p", "z", "m"⟩ }]⟩ := rfl
  have hfirst := (strict_lenient_agree [] [twoInScopes]).2.1 _ hs
  rw [List.flatMap_singleton, offered_twoInScopes] at hfirst
  have hmore := (strict_lenient_agree [] [twoInScopes]).2.2.2 true [.null] _ _ hl
  refine ⟨(strict_lenient_agree [] [onlyLink]).1 _ _ hok, hfirst, offered_twoInScopes, ?_⟩
  exact (strict_lenient_agree [] ([twoInScopes] ++ [.null])).2.2.1 _ _ hmore

end Loading
end MachineCatalog
