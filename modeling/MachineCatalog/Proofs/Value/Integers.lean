/-
# Values without long integers

An integer that is too long to be shown is a value, or a part of one.  A value that
holds none has no part that does: no member and no value under a key, also when a
knot is opened on the way (`Value.holdsLongInteger_fill`).
-/

import MachineCatalog.Value.Text

namespace MachineCatalog
namespace Value

theorem entriesHoldLongInteger_eq_false_iff (es : List (Value × Value)) :
    entriesHoldLongInteger es = false ↔
      ∀ e ∈ es, e.1.holdsLongInteger = false ∧ e.2.holdsLongInteger = false := by
  induction es with
  | nil => simp [entriesHoldLongInteger]
  | cons e es ih => simp [entriesHoldLongInteger, ih, and_assoc]

theorem someHoldLongInteger_eq_false_iff (vs : List Value) :
    someHoldLongInteger vs = false ↔ ∀ v ∈ vs, v.holdsLongInteger = false := by
  induction vs with
  | nil => simp [someHoldLongInteger]
  | cons v vs ih => simp [someHoldLongInteger, ih]

section Fill

variable {label : Nat} {whole : Value}

mutual

/-- What a knot is filled with adds no long integer of its own. -/
theorem holdsLongInteger_fill (hw : whole.holdsLongInteger = false) :
    ∀ v : Value, v.holdsLongInteger = false → (fill label whole v).holdsLongInteger = false
  | .list items => by
    intro h
    rw [holdsLongInteger] at h
    rw [fill, holdsLongInteger]
    exact someHoldLongInteger_fillItems hw items h
  | .pair a b => by
    intro h
    rw [holdsLongInteger, Bool.or_eq_false_iff] at h
    rw [fill, holdsLongInteger, holdsLongInteger_fill hw a h.1, holdsLongInteger_fill hw b h.2]
    rfl
  | .set members => by
    intro h
    rw [holdsLongInteger] at h
    rw [fill, holdsLongInteger]
    exact someHoldLongInteger_fillItems hw members h
  | .mapping entries => by
    intro h
    rw [holdsLongInteger] at h
    rw [fill, holdsLongInteger]
    exact entriesHoldLongInteger_fillEntries hw entries h
  | .knot l body => by
    intro h
    rw [holdsLongInteger] at h
    rw [fill]
    split
    · rwa [holdsLongInteger]
    · rw [holdsLongInteger, holdsLongInteger_fill hw body h]
  | .back l => by
    intro _
    rw [fill]
    split
    · exact hw
    · rfl
  | .null => fun _ => rfl
  | .bool _ => fun _ => rfl
  | .int _ => by
    intro h
    simpa only [fill] using h
  | .float _ => fun _ => rfl
  | .text _ => fun _ => rfl
  | .octets _ => fun _ => rfl
  | .date _ => fun _ => rfl
  | .moment _ => fun _ => rfl

theorem someHoldLongInteger_fillItems (hw : whole.holdsLongInteger = false) :
    ∀ vs : List Value, someHoldLongInteger vs = false →
      someHoldLongInteger (fillItems label whole vs) = false
  | [] => fun _ => rfl
  | v :: vs => by
    intro h
    rw [someHoldLongInteger, Bool.or_eq_false_iff] at h
    rw [fillItems, someHoldLongInteger, holdsLongInteger_fill hw v h.1,
      someHoldLongInteger_fillItems hw vs h.2]
    rfl

theorem entriesHoldLongInteger_fillEntries (hw : whole.holdsLongInteger = false) :
    ∀ es : List (Value × Value), entriesHoldLongInteger es = false →
      entriesHoldLongInteger (fillEntries label whole es) = false
  | [] => fun _ => rfl
  | (k, v) :: es => by
    intro h
    rw [entriesHoldLongInteger, Bool.or_eq_false_iff, Bool.or_eq_false_iff] at h
    rw [fillEntries, entriesHoldLongInteger, holdsLongInteger_fill hw k h.1.1,
      holdsLongInteger_fill hw v h.1.2, entriesHoldLongInteger_fillEntries hw es h.2]
    rfl

end

end Fill

theorem holdsLongInteger_opened {v : Value} (h : v.holdsLongInteger = false) :
    v.opened.holdsLongInteger = false := by
  cases v with
  | knot label body =>
    have hb : body.holdsLongInteger = false := by rwa [holdsLongInteger] at h
    exact holdsLongInteger_fill h body hb
  | _ => exact h

/-- No member of a list holds a long integer when the list holds none. -/
theorem holdsLongInteger_of_mem_items {v : Value} {items : List Value}
    (h : v.holdsLongInteger = false) (hi : v.items? = some items) :
    ∀ u ∈ items, u.holdsLongInteger = false := by
  have ho := holdsLongInteger_opened h
  rw [items?] at hi
  split at hi
  · rename_i vs hv
    obtain rfl := Option.some.inj hi
    rw [hv, holdsLongInteger] at ho
    exact (someHoldLongInteger_eq_false_iff vs).1 ho
  · cases hi

/-- The value under a key holds no long integer when the mapping holds none. -/
theorem holdsLongInteger_get {v : Value} {entries : List (Value × Value)}
    (h : v.holdsLongInteger = false) (he : v.entries? = some entries) (key : Text) :
    (get entries key).holdsLongInteger = false := by
  have hall : ∀ e ∈ entries, e.1.holdsLongInteger = false ∧ e.2.holdsLongInteger = false := by
    have ho := holdsLongInteger_opened h
    rw [entries?] at he
    split at he
    · rename_i es hv
      obtain rfl := Option.some.inj he
      rw [hv, holdsLongInteger] at ho
      exact (entriesHoldLongInteger_eq_false_iff es).1 ho
    · cases he
  rw [get, get?]
  cases hf : entries.find? fun e => e.1.isText key with
  | none => rfl
  | some e => exact (hall e (List.mem_of_find?_eq_some hf)).2

end Value
end MachineCatalog
