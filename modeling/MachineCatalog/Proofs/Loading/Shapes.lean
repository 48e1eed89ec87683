/-
# One list of wire forms in many shapes

An array, a list response and an aggregated response with the same members hold the same wire
forms, and a mapping that can only be a machine type holds itself.  Loading a document is loading
what it holds (`Loading.Holds.loadDocuments_eq`), so the shape does not matter
(`Loading.shapes_agree`).
-/

import MachineCatalog.Proofs.Loading.Modes

namespace MachineCatalog
namespace Loading

/-- Loading a document is loading what it holds. -/
theorem Holds.loadDocument_eq {doc : Value} {ps : List Value} (h : Holds doc ps) (skip : Bool)
    (source : Text) : loadDocument skip source doc = loadPayloads skip source ps := by
  obtain ⟨shape, hs, hu, hp⟩ := h
  rw [loadDocument, hs, Noted.lift_ok, Noted.bind_of_ok _ rfl]
  cases shape with
  | unknown => exact absurd rfl hu
  | machineType => simp only [hp]; rfl
  | array => simp only [hp]; rfl
  | list => simp only [hp]; rfl
  | aggregatedList => simp only [hp]; rfl

theorem Holds.loadDocuments_eq {doc : Value} {ps : List Value} (h : Holds doc ps) (skip : Bool)
    (source : Text) : loadDocuments skip source [doc] = loadPayloads skip source ps := by
  rw [loadDocuments_cons, h.loadDocument_eq]
  show Noted.append _ (pure []) = _
  rw [Noted.append_pure_nil]

/-- Wire forms are loaded one by one. -/
theorem loadPayloads_append (skip : Bool) (source : Text) (ps qs : List Value) :
    loadPayloads skip source (ps ++ qs) =
      Noted.append (loadPayloads skip source ps) (loadPayloads skip source qs) := by
  induction ps with
  | nil => exact (Noted.pure_nil_append _).symm
  | cons p ps ih =>
    rw [List.cons_append]
    cases hp : MachineType.ofWire p with
    | ok m => rw [loadPayloads_of_accepted hp, loadPayloads_of_accepted hp, ih, Noted.append_assoc]
    | error e =>
      cases e with
      | rejected why =>
        rw [loadPayloads_of_rejected hp, loadPayloads_of_rejected hp, ih]
        split
        · rw [Noted.append_assoc]
        · rfl
      | defect what =>
        rw [loadPayloads_of_defect hp, loadPayloads_of_defect hp]
        rfl

/-- Documents that hold one wire form each are loaded like the wire forms. -/
theorem loadDocuments_of_forall_holds {docs : List Value} (h : ∀ doc ∈ docs, Holds doc [doc])
    (skip : Bool) (source : Text) :
    loadDocuments skip source docs = loadPayloads skip source docs := by
  induction docs with
  | nil => rfl
  | cons doc docs ih =>
    rw [List.forall_mem_cons] at h
    rw [loadDocuments_cons, h.1.loadDocument_eq, ih h.2, ← loadPayloads_append]
    rfl

/-- **The shape of documents does not matter.**  A list response and an aggregated
response are loaded like the array of their members, and so are documents that are
machine types: with the same result or failure, and with the same notices. -/
theorem shapes_agree (skip : Bool) (source : Text) (xs : List Value) :
    (∀ fields, HasShownKind fields →
        (Value.get fields "kind").isText "compute#machineTypeAggregatedList" = false →
        Value.get fields "items" = .list xs →
        loadDocuments skip source [.mapping fields] = loadDocuments skip source [.list xs]) ∧
      (∀ fields scopes, HasShownKind fields → Value.get fields "items" = .mapping scopes →
        Cut scopes xs →
        loadDocuments skip source [.mapping fields] = loadDocuments skip source [.list xs]) ∧
      ((∀ x ∈ xs, ∃ fields, x = .mapping fields ∧ IsSingle fields) →
        loadDocuments skip source xs = loadDocuments skip source [.list xs]) := by
  have harray := (holds_array xs).loadDocuments_eq skip source
  refine ⟨fun fields hk hn hi => ?_, fun fields scopes hk hi hc => ?_, fun hall => ?_⟩
  · rw [harray, (holds_list hk hn hi).loadDocuments_eq]
  · rw [harray, (holds_aggregatedList hk hi hc).loadDocuments_eq]
  · have hholds : ∀ x ∈ xs, Holds x [x] := by
      rintro x hx
      obtain ⟨fields, rfl, hs⟩ := hall x hx
      exact holds_single hs
    have hmappings : xs.filter Value.isMapping = xs := by
      rw [List.filter_eq_self]
      rintro x hx
      obtain ⟨fields, rfl, -⟩ := hall x hx
      rfl
    rw [harray, loadDocuments_of_forall_holds hholds, hmappings]

/-- The same members in a list. -/
def twoInList : Value := .object [("items", .list [onlyLink, wrongLink])]

theorem shapes_agree_twoInScopes :
    loadDocuments true [] [twoInScopes] =
        loadDocuments true [] [.list [onlyLink, wrongLink, .int 0]] ∧
      loadDocuments false [] [twoInList] = loadDocuments false [] [.list [onlyLink, wrongLink]] ∧
      loadDocuments true [] [onlyLink, wrongLink] =
        loadDocuments true [] [.list [onlyLink, wrongLink]] := by
  refine ⟨(shapes_agree true [] [onlyLink, wrongLink, .int 0]).2.1 _ _ rfl rfl cut_fourScopes,
    (shapes_agree false [] [onlyLink, wrongLink]).1 _ rfl rfl rfl,
    (shapes_agree true [] [onlyLink, wrongLink]).2.2 ?_⟩
  rintro x hx
  rcases List.mem_cons.1 hx with rfl | hx
  · exact ⟨_, rfl, rfl, rfl, rfl, rfl, rfl, rfl⟩
  · obtain rfl := List.mem_singleton.1 hx
    exact ⟨_, rfl, rfl, rfl, rfl, rfl, rfl, rfl⟩

end Loading
end MachineCatalog
