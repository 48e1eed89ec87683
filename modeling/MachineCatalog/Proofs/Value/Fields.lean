/-
# Mappings whose fields may be left out

A wire form has a fixed list of keys, and each of its fields is there or left out.
`Value.present` keeps those that are there.  With keys that differ pairwise, the
value under a key is that of its field (`Value.lookup_present`), and two such
mappings are the same when their fields are, one by one
(`Value.same_present_iff`).  A field is left out for the value `null`, which is
also what reading an absent field gives, so nothing is lost
(`Value.getD_given?`).
-/

import MachineCatalog.Proofs.Value.Sameness

namespace MachineCatalog

namespace Value

/-- The fields that are there. -/
def present (fields : List (Text × Option Value)) : List (Text × Value) :=
  fields.filterMap fun f => f.2.map (f.1, ·)

/-- Both values are the same, or both are left out. -/
abbrev SameField : Option Value → Option Value → Prop := Option.Rel fun v w => same v w = true

@[simp] theorem present_nil : present [] = [] := rfl

theorem present_cons (k : Text) (v : Option Value) (fields : List (Text × Option Value)) :
    present ((k, v) :: fields) = (v.map (k, ·)).toList ++ present fields := by
  cases v <;> rfl

theorem keys_present_sublist (fields : List (Text × Option Value)) :
    ((present fields).map Prod.fst).Sublist (fields.map Prod.fst) := by
  induction fields with
  | nil => exact List.Sublist.refl _
  | cons f fields ih =>
    obtain ⟨k, v⟩ := f
    rw [present_cons]
    cases v with
    | none => exact ih.cons k
    | some v => exact ih.cons_cons k

theorem nodup_keys_present {fields : List (Text × Option Value)}
    (h : (fields.map Prod.fst).Nodup) : ((present fields).map Prod.fst).Nodup :=
  h.sublist (keys_present_sublist fields)

theorem lookup_eq_none {α : Type} {fields : List (Text × α)} {k : Text}
    (h : k ∉ fields.map Prod.fst) : fields.lookup k = none := by
  rw [List.lookup_eq_none_iff]
  intro f hf
  have hne : k ≠ f.1 := fun he => h (he ▸ List.mem_map_of_mem hf)
  simpa using hne

/-- **The value under a key is that of its field.** -/
theorem lookup_present {fields : List (Text × Option Value)} (h : (fields.map Prod.fst).Nodup)
    (k : Text) : (present fields).lookup k = (fields.lookup k).join := by
  induction fields with
  | nil => rfl
  | cons f fields ih =>
    obtain ⟨l, v⟩ := f
    rw [List.map_cons, List.nodup_cons] at h
    rw [present_cons, List.lookup_append, ih h.2]
    by_cases hk : k = l
    · subst hk
      rw [List.lookup_cons_self, lookup_eq_none h.1]
      cases v <;> simp
    · have hb : (k == l) = false := by simpa using hk
      rw [List.lookup_cons, hb]
      cases v <;> simp [List.lookup_cons, hb]

/-- **Two such mappings are the same field by field.** -/
theorem same_present_iff {fields others : List (Text × Option Value)}
    (hk : fields.map Prod.fst = others.map Prod.fst) (h : (fields.map Prod.fst).Nodup) :
    same (.object (present fields)) (.object (present others)) = true ↔
      List.Forall₂ (fun f g => SameField f.2 g.2) fields others := by
  rw [same_object_iff (nodup_keys_present h) (nodup_keys_present (hk ▸ h))]
  simp only [lookup_present h, lookup_present (hk ▸ h)]
  induction fields generalizing others with
  | nil =>
    cases others with
    | nil => simp
    | cons g others => simp at hk
  | cons f fields ih =>
    obtain ⟨l, v⟩ := f
    cases others with
    | nil => simp at hk
    | cons g others =>
      obtain ⟨l', w⟩ := g
      obtain ⟨rfl, hks⟩ := List.cons.inj hk
      rw [List.map_cons, List.nodup_cons] at h
      rw [List.forall₂_cons, ← ih hks h.2]
      constructor
      · refine fun hall => ⟨by simpa using hall l, fun k => ?_⟩
        by_cases he : k = l
        · subst he
          rw [lookup_eq_none h.1, lookup_eq_none (hks ▸ h.1)]
          exact .none
        · have hb : (k == l) = false := by simpa using he
          have hall := hall k
          rwa [List.lookup_cons, List.lookup_cons, hb] at hall
      · rintro ⟨hl, hall⟩ k
        by_cases he : k = l
        · subst he
          simpa using hl
        · have hb : (k == l) = false := by simpa using he
          rw [List.lookup_cons, List.lookup_cons, hb]
          exact hall k

theorem isJson_present {fields : List (Text × Option Value)} (hk : (fields.map Prod.fst).Nodup)
    (h : ∀ f ∈ fields, ∀ v ∈ f.2, IsJson v) : IsJson (.object (present fields)) := by
  refine .object (nodup_keys_present hk) fun f hf => ?_
  obtain ⟨⟨k, v⟩, hm, he⟩ := List.mem_filterMap.1 hf
  obtain ⟨u, hu, rfl⟩ := Option.map_eq_some_iff.1 he
  exact h _ hm u hu

/-! ### Reading -/

@[simp] theorem items?_list (items : List Value) : (Value.list items).items? = some items := rfl

@[simp] theorem entries?_object (fs : List (Text × Value)) :
    (object fs).entries? = some (fs.map fun f => (.text f.1, f.2)) := rfl

theorem get?_object (fs : List (Text × Value)) (k : Text) :
    get? (fs.map fun f => (.text f.1, f.2)) k = fs.lookup k := by
  induction fs with
  | nil => rfl
  | cons f fs ih =>
    obtain ⟨l, v⟩ := f
    rw [get?] at ih ⊢
    by_cases hk : l = k
    · simp [isText, hk]
    · have hb : (k == l) = false := by simpa using Ne.symm hk
      rw [List.lookup_cons, hb, List.map_cons, List.find?_cons_of_neg (by simp [isText, hk]), ih]

/-- Reading a field that may be left out. -/
theorem get_present {fields : List (Text × Option Value)} (h : (fields.map Prod.fst).Nodup)
    (k : Text) : get ((present fields).map fun f => (.text f.1, f.2)) k =
      (fields.lookup k).join.getD .null := by
  rw [get, get?_object, lookup_present h]

/-- The value, unless it is `null`. -/
def given? (v : Value) : Option Value := if v.isNull then none else some v

theorem isNull_iff (v : Value) : v.isNull = true ↔ v = .null := by
  cases v <;> simp [isNull]

@[simp] theorem given?_null : given? .null = none := rfl

@[simp] theorem getD_given? (v : Value) : v.given?.getD .null = v := by
  cases v <;> rfl

theorem mem_given? {v u : Value} (h : u ∈ v.given?) : u = v := by
  cases hv : v.isNull with
  | true => simp [given?, hv] at h
  | false => simpa [given?, hv, eq_comm] using h

/-- Leaving `null` out keeps values apart. -/
theorem sameField_given?_iff (v w : Value) : SameField v.given? w.given? ↔ same v w = true := by
  by_cases hv : v = .null
  · subst hv
    rw [null_same_iff]
    cases w <;> simp [given?, isNull]
  · have hv' : v.given? = some v := if_neg (by rwa [isNull_iff])
    by_cases hw : w = .null
    · subst hw
      rw [same_null_iff, hv']
      simp [hv]
    · have hw' : w.given? = some w := if_neg (by rwa [isNull_iff])
      rw [hv', hw', SameField, Option.rel_some_some]

end Value
end MachineCatalog
