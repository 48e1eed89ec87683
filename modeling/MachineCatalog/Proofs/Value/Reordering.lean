/-
# Mappings in another order

A mapping is known by what is under its keys, whatever the order in which they stand.  A
value is reordered when the entries of mappings in it, at any depth, stand in another
order (`Value.Reordered`).  What is the same as a value is the same as the reordered
value (`Value.Reordered.same_right`), and both count alike
(`Value.Reordered.counts_eq`).

What is under a key of a mapping is under that key of the reordered mapping, itself
reordered (`Value.Reordered.get?_entries`), and so are the members of a list
(`Value.Reordered.items?`).  Both hold inside of collections that hold themselves too,
since what fills a knot is reordered with it (`Value.Reordered.fill`).
-/

import MachineCatalog.Proofs.Value.Fields

namespace MachineCatalog

namespace Value

/-- No two entries are under one text. -/
def KeysDiffer (es : List (Value × Value)) : Prop :=
  es.Pairwise fun e f => ∀ key, e.1.isText key = true → f.1.isText key = false

/-- The entries of a mapping in another order; their keys differ, unless the order is the same. -/
def Shuffled (es fs : List (Value × Value)) : Prop := es = fs ∨ KeysDiffer es ∧ es.Perm fs

/-- The second value is the first with the entries of mappings in other orders, at any depth. -/
inductive Reordered : Value → Value → Prop
  | refl (v : Value) : Reordered v v
  | list {xs ys : List Value} (hl : xs.length = ys.length)
      (h : ∀ {x y}, (x, y) ∈ xs.zip ys → Reordered x y) : Reordered (.list xs) (.list ys)
  | set {xs ys : List Value} (hl : xs.length = ys.length)
      (h : ∀ {x y}, (x, y) ∈ xs.zip ys → Reordered x y) : Reordered (.set xs) (.set ys)
  | pair {a b c d : Value} (ha : Reordered a c) (hb : Reordered b d) :
      Reordered (.pair a b) (.pair c d)
  | mapping {es ds fs : List (Value × Value)} (hl : es.length = ds.length)
      (hk : ∀ {e d}, (e, d) ∈ es.zip ds → Reordered e.1 d.1)
      (hv : ∀ {e d}, (e, d) ∈ es.zip ds → Reordered e.2 d.2) (hs : Shuffled ds fs) :
      Reordered (.mapping es) (.mapping fs)
  | knot {label : Nat} {a b : Value} (h : Reordered a b) :
      Reordered (.knot label a) (.knot label b)

/-! ### Lists side by side -/

/-- What is in the first of two lists stands over against something in the second. -/
theorem exists_mem_zip {α β : Type} {xs : List α} {ys : List β} (hl : xs.length = ys.length)
    {x : α} (hx : x ∈ xs) : ∃ y ∈ ys, (x, y) ∈ xs.zip ys := by
  rw [← List.map_fst_zip (Nat.le_of_eq hl)] at hx
  obtain ⟨⟨x, y⟩, hxy, rfl⟩ := List.mem_map.1 hx
  exact ⟨y, (List.of_mem_zip hxy).2, hxy⟩

/-- What stands over against each other after two maps did so before. -/
theorem forall_mem_zip_map {α β : Type} {R : β → β → Prop} {f g : α → β} {xs ys : List α}
    (h : ∀ {x y}, (x, y) ∈ xs.zip ys → R (f x) (g y)) {a b : β}
    (hab : (a, b) ∈ (xs.map f).zip (ys.map g)) : R a b := by
  rw [List.zip_map] at hab
  obtain ⟨⟨x, y⟩, hxy, he⟩ := List.mem_map.1 hab
  obtain ⟨rfl, rfl⟩ := Prod.mk.inj he
  exact h hxy

theorem eq_of_mem_zip_self {α : Type} {xs : List α} {x y : α} (h : (x, y) ∈ xs.zip xs) :
    x ∈ xs ∧ x = y := by
  rw [List.zip_eq_zipWith, List.zipWith_self] at h
  obtain ⟨z, hz, he⟩ := List.mem_map.1 h
  obtain ⟨rfl, rfl⟩ := Prod.mk.inj he
  exact ⟨hz, rfl⟩

/-! ### Entries in another order -/

theorem Shuffled.perm {es fs : List (Value × Value)} (h : Shuffled es fs) : es.Perm fs := by
  rcases h with rfl | ⟨-, h⟩
  · exact .refl es
  · exact h

theorem KeysDiffer.perm {es fs : List (Value × Value)} (h : KeysDiffer es) (hp : es.Perm fs) :
    KeysDiffer fs := by
  refine hp.pairwise h fun he key hf => ?_
  rw [← Bool.not_eq_true]
  exact fun hk => by simp [he key hk] at hf

theorem get?_cons (e : Value × Value) (es : List (Value × Value)) (key : Text) :
    get? (e :: es) key = if e.1.isText key then some e.2 else get? es key := by
  rw [get?, get?, List.find?_cons]
  cases e.1.isText key <;> rfl

theorem get?_perm {es fs : List (Value × Value)} (h : KeysDiffer es) (hp : es.Perm fs)
    (key : Text) : get? es key = get? fs key := by
  induction hp with
  | nil => rfl
  | cons e _ ih => rw [get?_cons, get?_cons, ih (List.Pairwise.of_cons h)]
  | swap e f es =>
    have hfe := List.rel_of_pairwise_cons h (List.mem_cons_self) key
    simp only [get?_cons]
    split_ifs with hf he
    · rw [hfe hf] at he
      exact absurd he Bool.false_ne_true
    · rfl
    · rfl
    · rfl
  | trans hp _ ih ih' => exact (ih h).trans (ih' (h.perm hp))

/-- Another order does not change what is under a key. -/
theorem Shuffled.get?_eq {es fs : List (Value × Value)} (h : Shuffled es fs) (key : Text) :
    get? es key = get? fs key := by
  rcases h with rfl | ⟨hd, hp⟩
  · rfl
  · exact get?_perm hd hp key

/-- A mapping is reordered when its entries are, each one and among themselves. -/
theorem reordered_mapping {α : Type} {f g : α → Value × Value} {es ds : List α}
    {fs : List (Value × Value)} (hl : es.length = ds.length)
    (hk : ∀ {e d}, (e, d) ∈ es.zip ds → Reordered (f e).1 (g d).1)
    (hv : ∀ {e d}, (e, d) ∈ es.zip ds → Reordered (f e).2 (g d).2)
    (hs : Shuffled (ds.map g) fs) : Reordered (.mapping (es.map f)) (.mapping fs) :=
  .mapping (by simpa using hl)
    (forall_mem_zip_map (R := fun e d : Value × Value => Reordered e.1 d.1) hk)
    (forall_mem_zip_map (R := fun e d : Value × Value => Reordered e.2 d.2) hv) hs

/-! ### Objects in another order -/

theorem keysDiffer_object {fs : List (Text × Value)} (h : (fs.map Prod.fst).Nodup) :
    KeysDiffer (fs.map fun f => (.text f.1, f.2)) := by
  refine List.pairwise_map.2 ((List.pairwise_map.1 h).imp fun hne key hf => ?_)
  simp only [isText, decide_eq_true_eq, decide_eq_false_iff_not] at hf ⊢
  exact fun hg => hne (hf.trans hg.symm)

/-- An object is reordered when its fields are, each one and among themselves. -/
theorem reordered_object {fs ds gs : List (Text × Value)}
    (h : List.Forall₂ (fun f d => f.1 = d.1 ∧ Reordered f.2 d.2) fs ds)
    (hd : (ds.map Prod.fst).Nodup) (hp : ds.Perm gs) : Reordered (.object fs) (.object gs) := by
  obtain ⟨hl, hall⟩ := List.forall₂_iff_zip.1 h
  have hkeys {f d : Text × Value} (hfd : (f, d) ∈ fs.zip ds) :
      Reordered (.text f.1) (.text d.1) := by
    rw [(hall hfd).1]
    exact .refl _
  exact reordered_mapping hl hkeys (fun hfd => (hall hfd).2)
    (.inr ⟨keysDiffer_object hd, hp.map _⟩)

/-! ### Reordered values are the same -/

theorem same_pair_iff (u a b : Value) : same u (.pair a b) = true ↔
    ∃ c d, u = .pair c d ∧ same c a = true ∧ same d b = true := by
  have hquantity (v : Value) : sameQuantity v (.pair a b) = false :=
    sameQuantity_of_none_right v rfl
  cases u <;> simp [same, isNull, isNan, hquantity, isText]

theorem subset_iff (us xs : List Value) :
    subset us xs = true ↔ ∀ u ∈ us, ∃ x ∈ xs, same u x = true := by
  induction us with
  | nil => simp [subset]
  | cons u us ih => simp [subset, ih]

theorem same_set_iff (u : Value) (xs : List Value) : same u (.set xs) = true ↔
    ∃ us, u = .set us ∧ us.length = xs.length ∧ ∀ u ∈ us, ∃ x ∈ xs, same u x = true := by
  have hquantity (v : Value) : sameQuantity v (.set xs) = false := sameQuantity_of_none_right v rfl
  cases u <;> simp [same, isNull, isNan, hquantity, isText, subset_iff]

theorem subEntries_iff_exists (es fs : List (Value × Value)) : subEntries es fs = true ↔
    ∀ e ∈ es, ∃ f ∈ fs, same e.1 f.1 = true ∧ same e.2 f.2 = true := by
  induction es with
  | nil => simp [subEntries]
  | cons e es ih =>
    obtain ⟨k, v⟩ := e
    simp [subEntries, ih]

theorem same_mapping_iff (u : Value) (fs : List (Value × Value)) : same u (.mapping fs) = true ↔
    ∃ es, u = .mapping es ∧ es.length = fs.length ∧
      ∀ e ∈ es, ∃ f ∈ fs, same e.1 f.1 = true ∧ same e.2 f.2 = true := by
  have hquantity (v : Value) : sameQuantity v (.mapping fs) = false :=
    sameQuantity_of_none_right v rfl
  cases u <;> simp [same, isNull, isNan, hquantity, isText, subEntries_iff_exists]

theorem same_knot_iff (u : Value) (label : Nat) (a : Value) : same u (.knot label a) = true ↔
    ∃ b, u = .knot label b ∧ same b a = true := by
  have hquantity (v : Value) : sameQuantity v (.knot label a) = false :=
    sameQuantity_of_none_right v rfl
  cases u <;> simp [same, isNull, isNan, hquantity, isText]

/-- Members that stand over against each other in two steps do so in one. -/
theorem forall₂_comp {α β γ : Type} {R : α → β → Prop} {S : β → γ → Prop} {T : α → γ → Prop}
    (hT : ∀ {a b c}, R a b → S b c → T a c) {as : List α} {bs : List β} {cs : List γ}
    (h : List.Forall₂ R as bs) (h' : List.Forall₂ S bs cs) : List.Forall₂ T as cs := by
  induction h generalizing cs with
  | nil =>
    cases h'
    exact .nil
  | cons hab _ ih =>
    cases h' with
    | cons hbc h' => exact .cons (hT hab hbc) (ih h')

/-- **What is the same as a value is the same as the value reordered.** -/
theorem Reordered.same_right {v w : Value} (h : Reordered v w) {u : Value}
    (hu : same u v = true) : same u w = true := by
  induction h generalizing u with
  | refl v => exact hu
  | list hl _ ih =>
    obtain ⟨us, rfl, hus⟩ := (same_list_iff _ _).1 hu
    have hgo := List.forall₂_iff_zip.2 ⟨hl, fun hxy u => @ih _ _ hxy u⟩
    exact (same_list_iff _ _).2 ⟨us, rfl, forall₂_comp (fun hu hgo => hgo _ hu) hus hgo⟩
  | set hl _ ih =>
    obtain ⟨us, rfl, hlen, hus⟩ := (same_set_iff _ _).1 hu
    refine (same_set_iff _ _).2 ⟨us, rfl, hlen.trans hl, fun u hu => ?_⟩
    obtain ⟨x, hx, hsame⟩ := hus u hu
    obtain ⟨y, hy, hxy⟩ := exists_mem_zip hl hx
    exact ⟨y, hy, ih hxy hsame⟩
  | pair _ _ iha ihb =>
    obtain ⟨c, d, rfl, hc, hd⟩ := (same_pair_iff _ _ _).1 hu
    exact (same_pair_iff _ _ _).2 ⟨c, d, rfl, iha hc, ihb hd⟩
  | mapping hl _ _ hs ihk ihv =>
    obtain ⟨us, rfl, hlen, hus⟩ := (same_mapping_iff _ _).1 hu
    refine (same_mapping_iff _ _).2
      ⟨us, rfl, (hlen.trans hl).trans hs.perm.length_eq, fun u hu => ?_⟩
    obtain ⟨e, he, hkey, hvalue⟩ := hus u hu
    obtain ⟨d, hd, hed⟩ := exists_mem_zip hl he
    exact ⟨d, hs.perm.subset hd, ihk hed hkey, ihv hed hvalue⟩
  | knot _ ih =>
    obtain ⟨b, rfl, hb⟩ := (same_knot_iff _ _ _).1 hu
    exact (same_knot_iff _ _ _).2 ⟨b, rfl, ih hb⟩

theorem Reordered.isNull_eq {v w : Value} (h : Reordered v w) : v.isNull = w.isNull := by
  cases h <;> rfl

theorem isEmpty_eq_of_length_eq {α β : Type} {xs : List α} {ys : List β}
    (h : xs.length = ys.length) : xs.isEmpty = ys.isEmpty := by
  rw [Bool.eq_iff_iff, List.isEmpty_iff_length_eq_zero, List.isEmpty_iff_length_eq_zero, h]

theorem Reordered.counts_eq {v w : Value} (h : Reordered v w) : v.counts = w.counts := by
  induction h with
  | refl v => rfl
  | list hl _ _ => rw [counts, counts, isEmpty_eq_of_length_eq hl]
  | set hl _ _ => rw [counts, counts, isEmpty_eq_of_length_eq hl]
  | pair _ _ _ _ => rfl
  | mapping hl _ _ hs _ _ =>
    rw [counts, counts, isEmpty_eq_of_length_eq (hl.trans hs.perm.length_eq)]
  | knot _ ih => rw [counts, counts, ih]

/-! ### Inside of knots -/

section Fill

variable {label : Nat} {whole whole' : Value}

theorem fillItems_eq_map (vs : List Value) :
    fillItems label whole vs = vs.map (fill label whole) := by
  induction vs with
  | nil => rfl
  | cons v vs ih => rw [fillItems, ih, List.map_cons]

theorem fillEntries_eq_map (es : List (Value × Value)) :
    fillEntries label whole es = es.map fun e => (fill label whole e.1, fill label whole e.2) := by
  induction es with
  | nil => rfl
  | cons e es ih => rw [fillEntries, ih, List.map_cons]

/-- What fills a knot is not a text, so no text is made by it. -/
theorem isText_fill (hw : ∀ key, whole.isText key = false) (v : Value) (key : Text) :
    (fill label whole v).isText key = v.isText key := by
  cases v with
  | knot l body =>
    rw [fill]
    split_ifs <;> rfl
  | back l =>
    rw [fill]
    split_ifs
    · exact hw key
    · rfl
  | _ => rfl

theorem Shuffled.fill (hw : ∀ key, whole.isText key = false) {es fs : List (Value × Value)}
    (h : Shuffled es fs) : Shuffled (fillEntries label whole es) (fillEntries label whole fs) := by
  rw [fillEntries_eq_map, fillEntries_eq_map]
  rcases h with rfl | ⟨hd, hp⟩
  · exact .inl rfl
  · refine .inr ⟨List.pairwise_map.2 (hd.imp fun hef key he => ?_), hp.map _⟩
    rw [isText_fill hw] at he ⊢
    exact hef key he

mutual

/-- A value is filled alike with wholes that are alike. -/
theorem reordered_fill_whole (hw : Reordered whole whole') :
    ∀ v : Value, Reordered (fill label whole v) (fill label whole' v)
  | .list items => by
    rw [Value.fill, Value.fill, fillItems_eq_map, fillItems_eq_map]
    refine .list (by simp) (forall_mem_zip_map fun hxy => ?_)
    obtain ⟨hx, rfl⟩ := eq_of_mem_zip_self hxy
    exact reordered_fillItems_whole hw items _ hx
  | .set items => by
    rw [Value.fill, Value.fill, fillItems_eq_map, fillItems_eq_map]
    refine .set (by simp) (forall_mem_zip_map fun hxy => ?_)
    obtain ⟨hx, rfl⟩ := eq_of_mem_zip_self hxy
    exact reordered_fillItems_whole hw items _ hx
  | .pair a b => .pair (reordered_fill_whole hw a) (reordered_fill_whole hw b)
  | .mapping es => by
    rw [Value.fill, Value.fill, fillEntries_eq_map, fillEntries_eq_map]
    refine reordered_mapping rfl (fun hed => ?_) (fun hed => ?_) (.inl rfl)
    · obtain ⟨he, rfl⟩ := eq_of_mem_zip_self hed
      exact (reordered_fillEntries_whole hw es _ he).1
    · obtain ⟨he, rfl⟩ := eq_of_mem_zip_self hed
      exact (reordered_fillEntries_whole hw es _ he).2
  | .knot l body => by
    rw [Value.fill, Value.fill]
    split_ifs
    · exact .refl _
    · exact .knot (reordered_fill_whole hw body)
  | .back l => by
    rw [Value.fill, Value.fill]
    split_ifs
    · exact hw
    · exact .refl _
  | .null => .refl _
  | .bool _ => .refl _
  | .int _ => .refl _
  | .float _ => .refl _
  | .text _ => .refl _
  | .octets _ => .refl _
  | .date _ => .refl _
  | .moment _ => .refl _

theorem reordered_fillItems_whole (hw : Reordered whole whole') :
    ∀ vs : List Value, ∀ v ∈ vs, Reordered (fill label whole v) (fill label whole' v)
  | [] => fun _ h => absurd h List.not_mem_nil
  | v :: vs => List.forall_mem_cons.2
    ⟨reordered_fill_whole hw v, reordered_fillItems_whole hw vs⟩

theorem reordered_fillEntries_whole (hw : Reordered whole whole') :
    ∀ es : List (Value × Value), ∀ e ∈ es,
      Reordered (fill label whole e.1) (fill label whole' e.1) ∧
        Reordered (fill label whole e.2) (fill label whole' e.2)
  | [] => fun _ h => absurd h List.not_mem_nil
  | (k, v) :: es => List.forall_mem_cons.2
    ⟨⟨reordered_fill_whole hw k, reordered_fill_whole hw v⟩, reordered_fillEntries_whole hw es⟩

end

/-- **A value is still reordered when it is filled.** -/
theorem Reordered.fill (hw : Reordered whole whole') (hno : ∀ key, whole'.isText key = false)
    {v w : Value} (h : Reordered v w) :
    Reordered (Value.fill label whole v) (Value.fill label whole' w) := by
  induction h with
  | refl v => exact reordered_fill_whole hw v
  | list hl _ ih =>
    rw [Value.fill, Value.fill, fillItems_eq_map, fillItems_eq_map]
    exact .list (by simpa using hl) (forall_mem_zip_map ih)
  | set hl _ ih =>
    rw [Value.fill, Value.fill, fillItems_eq_map, fillItems_eq_map]
    exact .set (by simpa using hl) (forall_mem_zip_map ih)
  | pair _ _ iha ihb => exact .pair iha ihb
  | @mapping es ds fs hl _ _ hs ihk ihv =>
    -- the keys still differ, since what is filled in is no text
    have hfilled : Shuffled (fillEntries label whole' ds) (fillEntries label whole' fs) :=
      hs.fill hno
    rw [fillEntries_eq_map] at hfilled
    rw [Value.fill, Value.fill, fillEntries_eq_map]
    exact reordered_mapping hl ihk ihv hfilled
  | knot h ih =>
    rw [Value.fill, Value.fill]
    split_ifs
    · exact .knot h
    · exact .knot ih

end Fill

/-! ### What is under a key -/

theorem Reordered.opened {v w : Value} (h : Reordered v w) : Reordered v.opened w.opened := by
  cases h with
  -- a knot is opened by filling its body with the knot itself
  | knot h => exact .fill (.knot h) (fun _ => rfl) h
  | refl v => exact .refl _
  | list hl h => exact .list hl h
  | set hl h => exact .set hl h
  | pair ha hb => exact .pair ha hb
  | mapping hl hk hv hs => exact .mapping hl hk hv hs

/-- **The members of a list are reordered with it.** -/
theorem Reordered.items? {v w : Value} (h : Reordered v w) {xs : List Value}
    (hv : v.items? = some xs) : ∃ ys, w.items? = some ys ∧ List.Forall₂ Reordered xs ys := by
  have hopened := h.opened
  rw [Value.items?] at hv
  split at hv
  · rename_i items hitems
    obtain rfl := Option.some.inj hv
    rw [hitems] at hopened
    generalize hw : w.opened = w' at hopened
    cases hopened with
    | refl => exact ⟨items, by rw [Value.items?, hw], List.forall₂_same.2 fun v _ => .refl v⟩
    | list hl h => exact ⟨_, by rw [Value.items?, hw], List.forall₂_iff_zip.2 ⟨hl, h⟩⟩
  · cases hv

theorem Reordered.isText_eq {v w : Value} (h : Reordered v w) (key : Text) :
    v.isText key = w.isText key := by
  cases h <;> rfl

/-- What is under a key stays under it when the keys and values are reordered in their places. -/
theorem rel_get? {es ds : List (Value × Value)}
    (h : List.Forall₂ (fun e d => Reordered e.1 d.1 ∧ Reordered e.2 d.2) es ds) (key : Text) :
    Option.Rel Reordered (get? es key) (get? ds key) := by
  induction h with
  | nil => exact .none
  | cons hed _ ih =>
    rw [get?_cons, get?_cons, hed.1.isText_eq key]
    split_ifs
    · exact .some hed.2
    · exact ih

/-- **What is under a key of a mapping is under that key of the mapping reordered.** -/
theorem Reordered.get?_entries {v w : Value} (h : Reordered v w) {es : List (Value × Value)}
    (hv : v.entries? = some es) : ∃ fs, w.entries? = some fs ∧
      ∀ key, Option.Rel Reordered (get? es key) (get? fs key) := by
  have hopened := h.opened
  rw [entries?] at hv
  split at hv
  · rename_i entries hentries
    obtain rfl := Option.some.inj hv
    rw [hentries] at hopened
    generalize hw : w.opened = w' at hopened
    cases hopened with
    | refl =>
      exact ⟨entries, by rw [entries?, hw], rel_get? (List.forall₂_same.2 fun e _ =>
        ⟨.refl e.1, .refl e.2⟩)⟩
    | mapping hl hk hv hs =>
      refine ⟨_, by rw [entries?, hw], fun key => ?_⟩
      rw [← hs.get?_eq key]
      exact rel_get? (List.forall₂_iff_zip.2 ⟨hl, fun hed => ⟨hk hed, hv hed⟩⟩) key
  · cases hv

/-- What reading a key of a mapping gives is reordered with it. -/
theorem reordered_get {es fs : List (Value × Value)} {key : Text}
    (h : Option.Rel Reordered (get? es key) (get? fs key)) :
    Reordered (get es key) (get fs key) := by
  rw [get, get]
  generalize get? es key = v at h
  generalize get? fs key = w at h
  cases h with
  | none => exact .refl .null
  | some h => exact h

end Value
end MachineCatalog
