/-
# Buckets as a map

The buckets of a store are a map from bucket and name to content.  Storing an object sets
one entry of a bucket that exists (`Buckets.content?_store_self`), removing it clears one
(`Buckets.content?_remove_self`), and no other entry changes
(`Buckets.agreesExcept_store`, `Buckets.agreesExcept_remove`).
-/

import MachineCatalog.Storage.Buckets
import Mathlib.Tactic.SplitIfs

namespace MachineCatalog
namespace Storage

namespace Named

variable {α : Type}

@[simp] theorem get?_nil (name : Text) : get? ([] : Named α) name = none := rfl

theorem get?_cons (x : Text × α) (xs : Named α) (name : Text) :
    get? (x :: xs) name = if x.1 = name then some x.2 else get? xs name := by
  rw [get?, List.find?_cons]
  by_cases h : x.1 = name
  · simp [h]
  · simp [h, get?]

theorem get?_put (name : Text) (a : α) (xs : Named α) (n : Text) :
    get? (put name a xs) n = if n = name then some a else get? xs n := by
  induction xs with
  | nil =>
    rw [put, get?_cons, get?_nil]
    simp only [eq_comm]
  | cons x xs ih =>
    rw [put]
    split_ifs with hx hn hn
    · rw [get?_cons, if_pos hn.symm]
    · rw [get?_cons, get?_cons, if_neg (Ne.symm hn), if_neg (fun he => hn (he.symm.trans hx))]
    · have hne : x.1 ≠ n := fun he => hx (he.trans hn)
      rw [get?_cons, if_neg hne, ih, if_pos hn]
    · rw [get?_cons, get?_cons, ih, if_neg hn]

theorem get?_erase (name : Text) (xs : Named α) (n : Text) :
    get? (erase name xs) n = if n = name then none else get? xs n := by
  induction xs with
  | nil => simp [erase]
  | cons x xs ih =>
    rw [erase] at ih
    rw [erase, List.filter_cons, get?_cons]
    by_cases hx : x.1 = name
    · have hstep : get? (x :: xs) n = if n = name then some x.2 else get? xs n := by
        rw [get?_cons, hx]
        simp only [eq_comm]
      rw [if_neg (by simpa using hx), ih]
      split_ifs with hn hxn
      · rfl
      · exact absurd (hxn.symm.trans hx) hn
      · rfl
    · rw [if_pos (by simpa using hx), get?_cons, ih]
      split_ifs with hxn hn
      · exact absurd (hxn.trans hn) hx
      · rfl
      · rfl
      · rfl

/-- Changing what stands under one name changes what is found there, and nothing else. -/
theorem get?_map_key (key : Text) (f : α → α) (xs : Named α) (name : Text) :
    get? (xs.map fun x => if x.1 = key then (x.1, f x.2) else x) name =
      if name = key then (get? xs name).map f else get? xs name := by
  induction xs with
  | nil => simp
  | cons x xs ih =>
    have hfst : (if x.1 = key then (x.1, f x.2) else x).1 = x.1 := by split_ifs <;> rfl
    rw [List.map_cons, get?_cons, get?_cons, hfst, ih]
    by_cases hx : x.1 = name
    · subst hx
      by_cases hk : x.1 = key <;> simp [hk]
    · simp only [if_neg hx]

end Named

namespace Buckets

variable {bs : Buckets} {bucket name content : Text}

/-- Every entry but those at the given places, each a bucket and a name, is the same in both
states. -/
def AgreesExcept (places : List (Text × Text)) (old new : Buckets) : Prop :=
  ∀ bucket name, (bucket, name) ∉ places → new.content? bucket name = old.content? bucket name

theorem agreesExcept_refl (places : List (Text × Text)) (bs : Buckets) :
    bs.AgreesExcept places bs := fun _ _ _ => rfl

theorem AgreesExcept.trans {places places' : List (Text × Text)} {old mid new : Buckets}
    (h : old.AgreesExcept places mid) (h' : mid.AgreesExcept places' new) :
    old.AgreesExcept (places ++ places') new := by
  intro b n hn
  rw [List.mem_append, not_or] at hn
  rw [h' b n hn.2, h b n hn.1]

/-! ### Storing and removing -/

/-- Changing the object of one name in one bucket changes no other entry. -/
theorem agreesExcept_map_key (bs : Buckets) {bucket name : Text} {f : Named Text → Named Text}
    (hf : ∀ objects n, n ≠ name → (f objects).get? n = objects.get? n) :
    bs.AgreesExcept [(bucket, name)]
      (bs.map fun b => if b.1 = bucket then (b.1, f b.2) else b) := by
  intro b n hn
  rw [List.mem_singleton, Prod.mk.injEq, not_and] at hn
  rw [content?, content?, Named.get?_map_key]
  split_ifs with hb
  · cases bs.get? b with
    | none => rfl
    | some objects => exact hf objects n (hn hb)
  · rfl

theorem content?_store_self (h : (bs.get? bucket).isSome) :
    (bs.store bucket name content).content? bucket name = some content := by
  obtain ⟨objects, ho⟩ := Option.isSome_iff_exists.1 h
  rw [content?, store, Named.get?_map_key, if_pos rfl, ho, Option.map_some, Option.bind_some,
    Named.get?_put, if_pos rfl]

theorem agreesExcept_store (bs : Buckets) (bucket name content : Text) :
    bs.AgreesExcept [(bucket, name)] (bs.store bucket name content) :=
  agreesExcept_map_key bs fun objects n hn => by rw [Named.get?_put, if_neg hn]

theorem content?_remove_self (bs : Buckets) (bucket name : Text) :
    (bs.remove bucket name).content? bucket name = none := by
  rw [content?, remove, Named.get?_map_key, if_pos rfl]
  cases bs.get? bucket with
  | none => rfl
  | some objects => rw [Option.map_some, Option.bind_some, Named.get?_erase, if_pos rfl]

theorem agreesExcept_remove (bs : Buckets) (bucket name : Text) :
    bs.AgreesExcept [(bucket, name)] (bs.remove bucket name) :=
  agreesExcept_map_key bs fun objects n hn => by rw [Named.get?_erase, if_neg hn]

end Buckets
end Storage
end MachineCatalog
