/-
# Sameness is an equivalence

Every value is the same as itself (`Value.same_refl`).  On the values of JSON
documents, in which a mapping has text keys that differ pairwise, sameness is also
symmetric and transitive (`Value.same_symm`, `Value.same_trans`).

Numbers are the same when they denote one quantity, which settles `bool`, `int`
and `float` together.  Two mappings of equal length, each key of the first being a
key of the second, have the same keys, since keys do not repeat
(`Value.same_object_iff`).
-/

import MachineCatalog.Value.Equality
import Mathlib.Data.List.Perm.Subperm

namespace MachineCatalog

namespace Value

/-! ### Numbers -/

theorem exists_quantity?_float {x : Binary64} (h : x ≠ .nan) :
    ∃ q, (Value.float x).quantity? = some q := by
  cases x with
  | nan => exact absurd rfl h
  | signed negative rank =>
    cases hu : (Binary64.signed negative rank).units? with
    | none => exact ⟨.infinity negative, by simp [quantity?, hu]⟩
    | some u => exact ⟨.finite u, by simp [quantity?, hu]⟩

theorem sameQuantity_comm (v w : Value) : sameQuantity v w = sameQuantity w v := by
  rw [sameQuantity, sameQuantity]
  cases v.quantity? with
  | none => cases w.quantity? <;> rfl
  | some p =>
    cases w.quantity? with
    | none => rfl
    | some q => exact decide_eq_decide.2 eq_comm

theorem sameQuantity_eq_true_iff {v w : Value} :
    sameQuantity v w = true ↔ ∃ q, v.quantity? = some q ∧ w.quantity? = some q := by
  rw [sameQuantity]
  cases v.quantity? with
  | none => simp
  | some p =>
    cases w.quantity? with
    | none => simp
    | some q => simp [eq_comm]

theorem sameQuantity_of_none_left {v : Value} (h : v.quantity? = none) (w : Value) :
    sameQuantity v w = false := by
  rw [sameQuantity, h]

theorem sameQuantity_of_none_right (v : Value) {w : Value} (h : w.quantity? = none) :
    sameQuantity v w = false := by
  rw [sameQuantity_comm, sameQuantity_of_none_left h]

theorem sameQuantity_null (v : Value) : sameQuantity v .null = false :=
  sameQuantity_of_none_right v rfl

theorem sameQuantity_text (v : Value) (s : Text) : sameQuantity v (.text s) = false :=
  sameQuantity_of_none_right v rfl

theorem sameQuantity_list (v : Value) (items : List Value) : sameQuantity v (.list items) = false :=
  sameQuantity_of_none_right v rfl

/-- What denotes a quantity is a number. -/
theorem number_of_quantity {v : Value} {q : Quantity} (h : v.quantity? = some q) :
    (∃ b, v = .bool b) ∨ (∃ n, v = .int n) ∨ ∃ x, v = .float x ∧ x ≠ .nan := by
  cases v with
  | bool b => exact .inl ⟨b, rfl⟩
  | int n => exact .inr (.inl ⟨n, rfl⟩)
  | float x =>
    refine .inr (.inr ⟨x, rfl, ?_⟩)
    rintro rfl
    exact absurd h nofun
  | _ => exact absurd h nofun

/-- A number is compared by its quantity, on the left -/
theorem same_of_quantity {v : Value} {q : Quantity} (h : v.quantity? = some q) (w : Value) :
    same v w = sameQuantity v w := by
  obtain ⟨b, rfl⟩ | ⟨n, rfl⟩ | ⟨x, rfl, hx⟩ := number_of_quantity h
  · rw [same]
  · rw [same]
  · simp [same, hx]

/-- and on the right. -/
theorem same_of_quantity_right (v : Value) {w : Value} {q : Quantity} (h : w.quantity? = some q) :
    same v w = sameQuantity v w := by
  have hw := number_of_quantity h
  cases v with
  | bool b => rw [same]
  | int n => rw [same]
  | float x =>
    have hnan : w.isNan = false := by
      obtain ⟨b, rfl⟩ | ⟨n, rfl⟩ | ⟨y, rfl, hy⟩ := hw
      · rfl
      · rfl
      · cases y with
        | nan => exact absurd rfl hy
        | signed negative rank => rfl
    rw [same, hnan, Bool.and_false, Bool.false_or]
  | _ =>
    rw [sameQuantity_of_none_left rfl]
    obtain ⟨b, rfl⟩ | ⟨n, rfl⟩ | ⟨y, rfl, -⟩ := hw <;> simp [same, isNull, isText]

/-! ### Every value is the same as itself -/

mutual

/-- **Sameness is reflexive**, on all values. -/
theorem same_refl : ∀ v : Value, same v v = true
  | .null => by simp [same, isNull]
  | .bool b => by
    rw [same_of_quantity rfl, sameQuantity_eq_true_iff]
    exact ⟨_, rfl, rfl⟩
  | .int n => by
    rw [same_of_quantity rfl, sameQuantity_eq_true_iff]
    exact ⟨_, rfl, rfl⟩
  | .float x => by
    by_cases hx : x = .nan
    · simp [same, hx, isNan]
    · obtain ⟨q, hq⟩ := exists_quantity?_float hx
      rw [same_of_quantity hq, sameQuantity_eq_true_iff]
      exact ⟨q, hq, hq⟩
  | .text s => by simp [same, isText]
  | .octets bs => by simp [same]
  | .date d => by simp [same]
  | .moment m => by
    simp only [same, Moment.agrees]
    cases m.instant? <;> simp
  | .list items => by
    rw [same]
    exact sameItems_refl items
  | .pair a b => by simp [same, same_refl a, same_refl b]
  | .set members => by simp [same, subset_of_subset members members fun _ h => h]
  | .mapping entries => by simp [same, subEntries_of_subset entries entries fun _ h => h]
  | .knot label body => by simp [same, same_refl body]
  | .back label => by simp [same]

theorem sameItems_refl : ∀ vs : List Value, sameItems vs vs = true
  | [] => by simp [sameItems]
  | v :: vs => by simp [sameItems, same_refl v, sameItems_refl vs]

theorem subset_of_subset : ∀ vs ws : List Value, vs ⊆ ws → subset vs ws = true
  | [], _, _ => by simp [subset]
  | v :: vs, ws, h => by
    rw [subset, Bool.and_eq_true, List.any_eq_true]
    exact ⟨⟨v, h List.mem_cons_self, same_refl v⟩,
      subset_of_subset vs ws fun _ hu => h (List.mem_cons_of_mem _ hu)⟩

theorem subEntries_of_subset :
    ∀ es fs : List (Value × Value), es ⊆ fs → subEntries es fs = true
  | [], _, _ => by simp [subEntries]
  | (k, v) :: es, fs, h => by
    rw [subEntries, Bool.and_eq_true, List.any_eq_true]
    exact ⟨⟨(k, v), h List.mem_cons_self, by simp [same_refl k, same_refl v]⟩,
      subEntries_of_subset es fs fun _ hu => h (List.mem_cons_of_mem _ hu)⟩

end

/-! ### Values of JSON documents -/

/-- A value that a JSON document without NaN can hold. -/
inductive IsJson : Value → Prop
  | null : IsJson .null
  | bool (b : Bool) : IsJson (.bool b)
  | int (n : Int) : IsJson (.int n)
  | float {x : Binary64} (h : x ≠ .nan) : IsJson (.float x)
  | text (s : Text) : IsJson (.text s)
  | list {items : List Value} (h : ∀ v ∈ items, IsJson v) : IsJson (.list items)
  | object {fields : List (Text × Value)} (hk : (fields.map Prod.fst).Nodup)
      (h : ∀ f ∈ fields, IsJson f.2) : IsJson (.object fields)

/-- A number of JSON denotes a quantity; the rest of JSON is of four other forms. -/
theorem IsJson.form {v : Value} (h : IsJson v) :
    (∃ q, v.quantity? = some q) ∨ v = .null ∨ (∃ s, v = .text s) ∨
      (∃ items, v = .list items ∧ ∀ u ∈ items, IsJson u) ∨
      ∃ fields, v = .object fields ∧ (fields.map Prod.fst).Nodup ∧ ∀ f ∈ fields, IsJson f.2 := by
  cases h with
  | null => exact .inr (.inl rfl)
  | bool b => exact .inl ⟨_, rfl⟩
  | int n => exact .inl ⟨_, rfl⟩
  | float h => exact .inl (exists_quantity?_float h)
  | text s => exact .inr (.inr (.inl ⟨s, rfl⟩))
  | list h => exact .inr (.inr (.inr (.inl ⟨_, rfl, h⟩)))
  | object hk h => exact .inr (.inr (.inr (.inr ⟨_, rfl, hk, h⟩)))

theorem same_null_iff (v : Value) : same v .null = true ↔ v = .null := by
  cases v <;> simp [same, isNull, isNan, sameQuantity_null, isText]

theorem null_same_iff (v : Value) : same .null v = true ↔ v = .null := by
  cases v <;> simp [same, isNull]

theorem same_text_iff (v : Value) (s : Text) : same v (.text s) = true ↔ v = .text s := by
  cases v <;> simp [same, isNull, isNan, sameQuantity_text, isText, eq_comm]

theorem text_same_iff (s : Text) (v : Value) : same (.text s) v = true ↔ v = .text s := by
  cases v <;> simp [same, isText]

/-- Lists are the same member by member. -/
theorem sameItems_iff (vs ws : List Value) :
    sameItems vs ws = true ↔ List.Forall₂ (fun v w => same v w = true) vs ws := by
  induction vs generalizing ws with
  | nil => cases ws <;> simp [sameItems]
  | cons v vs ih => cases ws <;> simp [sameItems, ih]

theorem list_same_iff (vs : List Value) (v : Value) :
    same (.list vs) v = true ↔
      ∃ ws, v = .list ws ∧ List.Forall₂ (fun v w => same v w = true) vs ws := by
  cases v <;> simp [same, sameItems_iff]

theorem same_list_iff (v : Value) (ws : List Value) :
    same v (.list ws) = true ↔
      ∃ vs, v = .list vs ∧ List.Forall₂ (fun v w => same v w = true) vs ws := by
  cases v <;> simp [same, sameItems_iff, isNull, isNan, sameQuantity_list, isText]

theorem subEntries_iff (fs : List (Text × Value)) (entries : List (Value × Value)) :
    subEntries (fs.map fun f => (.text f.1, f.2)) entries = true ↔
      ∀ f ∈ fs, ∃ e ∈ entries, e.1 = .text f.1 ∧ same f.2 e.2 = true := by
  induction fs with
  | nil => simp [subEntries]
  | cons f fs ih => simp [subEntries, ih, text_same_iff]

theorem object_same_object_iff (fs gs : List (Text × Value)) :
    same (.object fs) (.object gs) = true ↔
      fs.length = gs.length ∧ ∀ f ∈ fs, ∃ g ∈ gs, g.1 = f.1 ∧ same f.2 g.2 = true := by
  rw [object, object, same, Bool.and_eq_true, decide_eq_true_iff, subEntries_iff]
  simp

/-- Only a mapping is the same as a mapping. -/
theorem IsJson.exists_object {v : Value} (h : IsJson v) {fs : List (Text × Value)}
    (hs : same (.object fs) v = true ∨ same v (.object fs) = true) :
    ∃ gs, v = .object gs ∧ (gs.map Prod.fst).Nodup ∧ ∀ g ∈ gs, IsJson g.2 := by
  rcases h.form with ⟨q, hq⟩ | rfl | ⟨s, rfl⟩ | ⟨items, rfl, -⟩ | h
  · have hnone : sameQuantity v (.object fs) = false := by
      rw [sameQuantity, hq]
      rfl
    rw [same_of_quantity hq, same_of_quantity_right _ hq, sameQuantity_comm _ v, hnone] at hs
    simp at hs
  · simp [same_null_iff, null_same_iff, Value.object] at hs
  · simp [same_text_iff, text_same_iff, Value.object] at hs
  · simp [same_list_iff, list_same_iff, Value.object] at hs
  · exact h

theorem lookup_eq_some_iff_mem {fs : List (Text × Value)} (h : (fs.map Prod.fst).Nodup) {k : Text}
    {v : Value} : fs.lookup k = some v ↔ (k, v) ∈ fs := by
  induction fs with
  | nil => simp
  | cons f fs ih =>
    obtain ⟨l, u⟩ := f
    rw [List.map_cons, List.nodup_cons] at h
    rw [List.mem_cons, Prod.mk.injEq]
    by_cases hk : k = l
    · subst hk
      have hno : (k, v) ∉ fs := fun hm =>
        h.1 (show k ∈ fs.map Prod.fst from List.mem_map_of_mem (f := Prod.fst) hm)
      rw [List.lookup_cons_self, Option.some.injEq]
      exact ⟨fun he => .inl ⟨rfl, he.symm⟩, fun he => he.elim (·.2.symm) fun hm => absurd hm hno⟩
    · have hb : (k == l) = false := by simpa using hk
      rw [List.lookup_cons, hb, ih h.2]
      exact ⟨.inr, fun he => he.elim (fun hl => absurd hl.1 hk) id⟩

/-- **Mappings are the same key by key.**  The keys of the first are keys of the
second; both having equally many, each key of the second is one of the first. -/
theorem same_object_iff {fs gs : List (Text × Value)} (hf : (fs.map Prod.fst).Nodup)
    (hg : (gs.map Prod.fst).Nodup) :
    same (.object fs) (.object gs) = true ↔
      ∀ k, Option.Rel (fun v w => same v w = true) (fs.lookup k) (gs.lookup k) := by
  rw [object_same_object_iff]
  constructor
  · rintro ⟨hlen, hall⟩ k
    have hsub : fs.map Prod.fst ⊆ gs.map Prod.fst := by
      intro l hl
      obtain ⟨f, hm, rfl⟩ := List.mem_map.1 hl
      obtain ⟨g, hg, he, -⟩ := hall f hm
      exact he ▸ List.mem_map_of_mem hg
    have hperm : (fs.map Prod.fst).Perm (gs.map Prod.fst) :=
      (List.subperm_of_subset hf hsub).perm_of_length_le (by simp [hlen])
    cases hv : fs.lookup k with
    | some v =>
      obtain ⟨g, hm, he, hs⟩ := hall _ ((lookup_eq_some_iff_mem hf).1 hv)
      obtain ⟨l, w⟩ := g
      obtain rfl : l = k := he
      rw [(lookup_eq_some_iff_mem hg).2 hm]
      exact .some hs
    | none =>
      have hk : k ∉ gs.map Prod.fst := by
        rw [← hperm.mem_iff]
        intro hm
        obtain ⟨⟨l, u⟩, hmem, rfl⟩ := List.mem_map.1 hm
        rw [(lookup_eq_some_iff_mem hf).2 hmem] at hv
        exact Option.some_ne_none u hv
      cases hw : gs.lookup k with
      | none => exact .none
      | some w =>
        exact absurd (List.mem_map_of_mem (f := Prod.fst) ((lookup_eq_some_iff_mem hg).1 hw)) hk
  · intro hall
    have hright : ∀ f ∈ fs, ∃ g ∈ gs, g.1 = f.1 ∧ same f.2 g.2 = true := by
      intro f hm
      have hrel := hall f.1
      rw [(lookup_eq_some_iff_mem hf).2 hm] at hrel
      cases hw : gs.lookup f.1 with
      | none => rw [hw] at hrel; cases hrel
      | some w =>
        rw [hw] at hrel
        cases hrel with
        | some hs => exact ⟨(f.1, w), (lookup_eq_some_iff_mem hg).1 hw, rfl, hs⟩
    have hleft : ∀ g ∈ gs, ∃ f ∈ fs, f.1 = g.1 := by
      intro g hm
      have hrel := hall g.1
      rw [(lookup_eq_some_iff_mem hg).2 hm] at hrel
      cases hv : fs.lookup g.1 with
      | none => rw [hv] at hrel; cases hrel
      | some v => exact ⟨(g.1, v), (lookup_eq_some_iff_mem hf).1 hv, rfl⟩
    refine ⟨?_, hright⟩
    have hle : (fs.map Prod.fst).length ≤ (gs.map Prod.fst).length :=
      (List.subperm_of_subset hf fun l hl => by
        obtain ⟨f, hm, rfl⟩ := List.mem_map.1 hl
        obtain ⟨g, hg, he, -⟩ := hright f hm
        exact he ▸ List.mem_map_of_mem hg).length_le
    have hge : (gs.map Prod.fst).length ≤ (fs.map Prod.fst).length :=
      (List.subperm_of_subset hg fun l hl => by
        obtain ⟨g, hm, rfl⟩ := List.mem_map.1 hl
        obtain ⟨f, hf, he⟩ := hleft g hm
        exact he ▸ List.mem_map_of_mem hf).length_le
    rw [List.length_map, List.length_map] at hle hge
    exact Nat.le_antisymm hle hge

/-! ### Symmetry and transitivity -/

theorem same_symm_of_quantity {v : Value} {q : Quantity} (h : v.quantity? = some q) {w : Value}
    (hs : same v w = true) : same w v = true := by
  rwa [same_of_quantity_right w h, sameQuantity_comm, ← same_of_quantity h]

theorem same_trans_of_quantity {u v w : Value} {q : Quantity} (h : u.quantity? = some q)
    (huv : same u v = true) (hvw : same v w = true) : same u w = true := by
  rw [same_of_quantity h, sameQuantity_eq_true_iff] at huv
  obtain ⟨p, hu, hv⟩ := huv
  rw [same_of_quantity hv, sameQuantity_eq_true_iff] at hvw
  obtain ⟨r, hv', hw⟩ := hvw
  rw [same_of_quantity h, sameQuantity_eq_true_iff]
  exact ⟨p, hu, by rw [hw, ← hv', hv]⟩

/-- A relation that turns round on the members turns round on the lists. -/
theorem forall₂_symm_of_mem {R : Value → Value → Prop} {vs ws : List Value}
    (h : List.Forall₂ R vs ws) (hR : ∀ v ∈ vs, ∀ w ∈ ws, R v w → R w v) :
    List.Forall₂ R ws vs := by
  induction h with
  | nil => exact .nil
  | cons hr _ ih =>
    exact .cons (hR _ List.mem_cons_self _ List.mem_cons_self hr) (ih fun v hv w hw =>
      hR v (List.mem_cons_of_mem _ hv) w (List.mem_cons_of_mem _ hw))

/-- A relation that goes on from member to member goes on from list to list. -/
theorem forall₂_trans_of_mem {R : Value → Value → Prop} {us vs ws : List Value}
    (huv : List.Forall₂ R us vs) (hvw : List.Forall₂ R vs ws)
    (hR : ∀ u ∈ us, ∀ v ∈ vs, ∀ w ∈ ws, R u v → R v w → R u w) : List.Forall₂ R us ws := by
  induction huv generalizing ws with
  | nil => exact hvw
  | cons hr _ ih =>
    cases hvw with
    | cons hs hvw =>
      exact .cons (hR _ List.mem_cons_self _ List.mem_cons_self _ List.mem_cons_self hr hs)
        (ih hvw fun u hu v hv w hw => hR u (List.mem_cons_of_mem _ hu) v
          (List.mem_cons_of_mem _ hv) w (List.mem_cons_of_mem _ hw))

theorem mem_of_lookup {fs : List (Text × Value)} {k : Text} {v : Value}
    (h : fs.lookup k = some v) : (k, v) ∈ fs := by
  obtain ⟨before, after, rfl, -⟩ := List.lookup_eq_some_iff.1 h
  exact List.mem_append_right _ List.mem_cons_self

/-- **Sameness is symmetric** on the values of JSON. -/
theorem same_symm {v w : Value} (hv : IsJson v) (hw : IsJson w) (hs : same v w = true) :
    same w v = true := by
  induction hv generalizing w with
  | null => rwa [same_null_iff, ← null_same_iff]
  | bool b => exact same_symm_of_quantity rfl hs
  | int n => exact same_symm_of_quantity rfl hs
  | float h =>
    obtain ⟨q, hq⟩ := exists_quantity?_float h
    exact same_symm_of_quantity hq hs
  | text s => rwa [same_text_iff, ← text_same_iff]
  | list _ ih =>
    obtain ⟨ws, rfl, hall⟩ := (list_same_iff _ _).1 hs
    cases hw with
    | list hws =>
      exact (list_same_iff _ _).2 ⟨_, rfl, forall₂_symm_of_mem hall fun v hv w hw hr =>
        ih v hv (hws w hw) hr⟩
  | @object fs hk _ ih =>
    obtain ⟨gs, rfl, hg, hjson⟩ := hw.exists_object (.inl hs)
    rw [same_object_iff hk hg] at hs
    rw [same_object_iff hg hk]
    intro k
    have hrel := hs k
    generalize hv : fs.lookup k = v at hrel
    generalize hw : gs.lookup k = w at hrel
    cases hrel with
    | none => exact .none
    | some hvw => exact .some (ih _ (mem_of_lookup hv) (hjson _ (mem_of_lookup hw)) hvw)

/-- **Sameness is transitive** on the values of JSON. -/
theorem same_trans {u v w : Value} (hu : IsJson u) (hv : IsJson v) (hw : IsJson w)
    (huv : same u v = true) (hvw : same v w = true) : same u w = true := by
  induction hu generalizing v w with
  | null =>
    rw [null_same_iff] at huv
    rwa [huv] at hvw
  | bool b => exact same_trans_of_quantity rfl huv hvw
  | int n => exact same_trans_of_quantity rfl huv hvw
  | float h =>
    obtain ⟨q, hq⟩ := exists_quantity?_float h
    exact same_trans_of_quantity hq huv hvw
  | text s =>
    rw [text_same_iff] at huv
    rwa [huv] at hvw
  | list _ ih =>
    obtain ⟨vs, rfl, hr⟩ := (list_same_iff _ _).1 huv
    obtain ⟨ws, rfl, hs⟩ := (list_same_iff _ _).1 hvw
    cases hv with
    | list hvs =>
      cases hw with
      | list hws =>
        exact (list_same_iff _ _).2 ⟨_, rfl, forall₂_trans_of_mem hr hs
          fun u hu v hv w hw huv hvw => ih u hu (hvs v hv) (hws w hw) huv hvw⟩
  | @object fs hk _ ih =>
    obtain ⟨gs, rfl, hg, hgs⟩ := hv.exists_object (.inl huv)
    obtain ⟨hs, rfl, hh, hhs⟩ := hw.exists_object (.inl hvw)
    rw [same_object_iff hk hg] at huv
    rw [same_object_iff hg hh] at hvw
    rw [same_object_iff hk hh]
    intro k
    have hr := huv k
    have hs' := hvw k
    generalize hu : fs.lookup k = u at hr ⊢
    generalize hv : gs.lookup k = v at hr hs'
    generalize hw : hs.lookup k = w at hs' ⊢
    cases hr with
    | none =>
      cases hs' with
      | none => exact .none
    | some huv =>
      cases hs' with
      | some hvw =>
        exact .some (ih _ (mem_of_lookup hu) (hgs _ (mem_of_lookup hv)) (hhs _ (mem_of_lookup hw))
          huv hvw)

theorem same_comm {v w : Value} (hv : IsJson v) (hw : IsJson w) : same v w = same w v :=
  Bool.eq_iff_iff.2 ⟨same_symm hv hw, same_symm hw hv⟩

end Value
end MachineCatalog
