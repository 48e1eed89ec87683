/-
# What documents offer

A document offers wire forms, in order (`Loading.offered`).  A document of a known shape offers
what it holds (`Loading.Holds.offered_eq`).  An array, a list response and an aggregated
response with the same members hold the same ones: the mappings among the members, in order
(`Loading.holds_array`, `Loading.holds_list`, `Loading.holds_aggregatedList`).  The scopes of an
aggregated response may cut the members anywhere, and scopes without machine types may stand
between (`Loading.Cut`).  A mapping that can only be a machine type holds itself
(`Loading.holds_single`).

A kind is asked for as text.  No JSON text writes an integer too long to be shown,
so the kind of a JSON document can always be asked for
(`Loading.HasShownKind`).
-/

import MachineCatalog.Loading.Documents
import MachineCatalog.Proofs.Failure
import Mathlib.Tactic.SplitIfs

namespace MachineCatalog
namespace Loading

/-- The wire forms that a document offers: none when its shape is not known, or when
they cannot be found. -/
def offered (doc : Value) : List Value :=
  match detectShape doc with
  | .ok shape => (payloads shape doc).toOption.getD []
  | .error _ => []

/-- Whether the document has none of the known shapes. -/
def isUnrecognised (doc : Value) : Bool :=
  match detectShape doc with
  | .ok .unknown => true
  | _ => false

/-- A shape is found unless the kind cannot be written. -/
theorem detectShape_cases (doc : Value) :
    (∃ shape, detectShape doc = .ok shape) ∨ detectShape doc = abort .longInteger := by
  rw [detectShape]
  split
  · exact .inl ⟨_, rfl⟩
  · split
    · rw [shapeOfFields]
      split
      · exact .inr rfl
      · refine .inl ?_
        split
        · exact ⟨_, rfl⟩
        · split
          · exact ⟨_, rfl⟩
          · split <;> exact ⟨_, rfl⟩
    · exact .inl ⟨_, rfl⟩

/-- The wire forms are found unless the scopes are kept as no mapping. -/
theorem payloads_cases (shape : Shape) (doc : Value) :
    (∃ ps, payloads shape doc = .ok ps) ∨
      ∃ items, payloads shape doc = abort (.notScopes items) := by
  cases shape with
  | machineType => exact .inl ⟨_, rfl⟩
  | array => exact .inl ⟨_, rfl⟩
  | list => exact .inl ⟨_, rfl⟩
  | unknown => exact .inl ⟨_, rfl⟩
  | aggregatedList =>
    simp only [payloads, scopedObjects]
    split
    · exact .inl ⟨_, rfl⟩
    · split
      · exact .inl ⟨_, rfl⟩
      · exact .inr ⟨_, rfl⟩

/-- The document is recognised, and holds these wire forms. -/
def Holds (doc : Value) (ps : List Value) : Prop :=
  ∃ shape, detectShape doc = .ok shape ∧ shape ≠ .unknown ∧ payloads shape doc = .ok ps

/-- **A document of a known shape offers what it holds.** -/
theorem Holds.offered_eq {doc : Value} {ps : List Value} (h : Holds doc ps) : offered doc = ps := by
  obtain ⟨shape, hs, -, hp⟩ := h
  rw [offered, hs]
  simp only [hp]
  rfl

theorem Holds.isUnrecognised_eq {doc : Value} {ps : List Value} (h : Holds doc ps) :
    isUnrecognised doc = false := by
  obtain ⟨shape, hs, hu, -⟩ := h
  rw [isUnrecognised, hs]
  cases shape with
  | unknown => exact absurd rfl hu
  | _ => rfl

/-! ### The shapes -/

/-- The kind of a mapping can be asked for: it holds no integer too long to be shown. -/
def HasShownKind (fields : List (Value × Value)) : Prop :=
  (Value.get fields "kind").holdsLongInteger = false

theorem shapeOfFields_eq {fields : List (Value × Value)} (h : HasShownKind fields) :
    shapeOfFields fields = .ok (
      if (Value.get fields "kind").isText "compute#machineTypeAggregatedList" ||
          (Value.get fields "items").isMapping then .aggregatedList
      else if (Value.get fields "kind").isText "compute#machineTypeList" ||
          (Value.get fields "items").isList then .list
      else if (Value.get fields "kind").isText "compute#machineType" ||
          (Value.get? fields "selfLink").isSome then .machineType
      else .unknown) := by
  rw [shapeOfFields, h, if_neg Bool.false_ne_true]
  split_ifs <;> rfl

theorem detectShape_mapping (fields : List (Value × Value)) :
    detectShape (.mapping fields) = shapeOfFields fields := rfl

/-- An array holds the mappings among its members. -/
theorem holds_array (xs : List Value) : Holds (.list xs) (xs.filter Value.isMapping) :=
  ⟨.array, rfl, nofun, rfl⟩

/-- A list response holds the mappings among its members. -/
theorem holds_list {fields : List (Value × Value)} {xs : List Value} (hk : HasShownKind fields)
    (hn : (Value.get fields "kind").isText "compute#machineTypeAggregatedList" = false)
    (hi : Value.get fields "items" = .list xs) :
    Holds (.mapping fields) (xs.filter Value.isMapping) := by
  have hm : (Value.list xs).isMapping = false := rfl
  have hl : (Value.list xs).isList = true := rfl
  refine ⟨.list, ?_, nofun, ?_⟩
  · simp [detectShape_mapping, shapeOfFields_eq hk, hn, hi, hm, hl]
  · show Except.ok (objects (Value.get fields "items")) = _
    rw [hi]
    rfl

/-- The scopes hold the members of a list in order, each a part of it or nothing. -/
inductive Cut : List (Value × Value) → List Value → Prop
  | nil : Cut [] []
  | part {key : Value} {fields scopes : List (Value × Value)} {xs ys : List Value}
      (h : Value.get fields "machineTypes" = .list xs) (rest : Cut scopes ys) :
      Cut ((key, .mapping fields) :: scopes) (xs ++ ys)
  | empty {key scope : Value} {scopes : List (Value × Value)} {ys : List Value}
      (h : ∀ fields, scope.entries? = some fields →
        (Value.get fields "machineTypes").isList = false) (rest : Cut scopes ys) :
      Cut ((key, scope) :: scopes) ys

theorem objects_of_isList_eq_false {v : Value} (h : v.isList = false) : objects v = [] := by
  rw [objects, Option.not_isSome_iff_eq_none.1 (Bool.eq_false_iff.1 h)]
  rfl

/-- However the scopes cut a list, they hold the mappings among its members. -/
theorem Cut.flatMap_scopeObjects {scopes : List (Value × Value)} {xs : List Value}
    (h : Cut scopes xs) :
    (scopes.flatMap fun scope => scopeObjects scope.2) = xs.filter Value.isMapping := by
  induction h with
  | nil => rfl
  | @part key fields scopes xs ys h _ ih =>
    have hpart : scopeObjects (.mapping fields) = xs.filter Value.isMapping := by
      show objects (Value.get fields "machineTypes") = _
      rw [h]
      rfl
    rw [List.flatMap_cons, ih, List.filter_append, hpart]
  | @empty key scope scopes ys h _ ih =>
    have hnone : scopeObjects scope = [] := by
      rw [scopeObjects]
      split
      · exact objects_of_isList_eq_false (h _ ‹_›)
      · rfl
    rw [List.flatMap_cons, ih, hnone, List.nil_append]

/-- An aggregated response holds the mappings among the members of the list that its
scopes cut. -/
theorem holds_aggregatedList {fields scopes : List (Value × Value)} {xs : List Value}
    (hk : HasShownKind fields) (hi : Value.get fields "items" = .mapping scopes)
    (hc : Cut scopes xs) : Holds (.mapping fields) (xs.filter Value.isMapping) := by
  have hm : (Value.mapping scopes).isMapping = true := rfl
  refine ⟨.aggregatedList, ?_, nofun, ?_⟩
  · simp [detectShape_mapping, shapeOfFields_eq hk, hi, hm]
  · show scopedObjects (Value.get fields "items") = _
    rw [hi, ← hc.flatMap_scopeObjects]
    -- no scopes at all do not count, and are not looked at
    cases scopes with
    | nil => rfl
    | cons scope scopes => rfl

/-- A mapping that can only be a machine type: it has a self link, its kind is that of
no list, and under its items stands neither a list nor a mapping. -/
structure IsSingle (fields : List (Value × Value)) : Prop where
  kind : HasShownKind fields
  notList : (Value.get fields "kind").isText "compute#machineTypeList" = false
  notAggregatedList :
    (Value.get fields "kind").isText "compute#machineTypeAggregatedList" = false
  itemsNoList : (Value.get fields "items").isList = false
  itemsNoMapping : (Value.get fields "items").isMapping = false
  selfLink : (Value.get? fields "selfLink").isSome = true

theorem holds_single {fields : List (Value × Value)} (h : IsSingle fields) :
    Holds (.mapping fields) [.mapping fields] := by
  refine ⟨.machineType, ?_, nofun, rfl⟩
  simp [detectShape_mapping, shapeOfFields_eq h.kind, h.notList, h.notAggregatedList,
    h.itemsNoList, h.itemsNoMapping, h.selfLink]

/-- A machine type by its identity alone. -/
def onlyLink : Value := .object [("selfLink", .text "projects/p/zones/z/machineTypes/m")]

/-- A machine type whose self link names none. -/
def wrongLink : Value := .object [("selfLink", .text "projects/p")]

/-- Scopes that cut a list of `onlyLink`, `wrongLink` and a number, and two that hold none. -/
def fourScopes : List (Value × Value) := [
  (.text "zones/a", .object [("machineTypes", .list [onlyLink])]),
  (.text "zones/b", .object [("warning", .text "no results")]),
  (.text "zones/c", .list [wrongLink]),
  (.text "zones/d", .object [("machineTypes", .list [wrongLink, .int 0])])]

/-- An aggregated response with these scopes. -/
def twoInScopes : Value :=
  .object [("kind", .text "compute#machineType"), ("items", .mapping fourScopes)]

theorem cut_fourScopes : Cut fourScopes [onlyLink, wrongLink, .int 0] := by
  have hlast : Cut [(.text "zones/d", .object [("machineTypes", .list [wrongLink, .int 0])])]
      ([wrongLink, .int 0] ++ []) := .part rfl .nil
  show Cut fourScopes ([onlyLink] ++ ([wrongLink, .int 0] ++ []))
  exact .part rfl (.empty (fun _ h => Option.some.inj h ▸ rfl) (.empty nofun hlast))

theorem offered_twoInScopes : offered twoInScopes = [onlyLink, wrongLink] := by
  have hholds : Holds twoInScopes ([onlyLink, wrongLink, .int 0].filter Value.isMapping) :=
    holds_aggregatedList rfl rfl cut_fourScopes
  exact hholds.offered_eq

end Loading
end MachineCatalog
