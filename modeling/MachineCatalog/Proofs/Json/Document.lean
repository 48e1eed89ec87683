/-
# JSON documents

A document is a value that a JSON text can hold, NaN and the infinities left out
(`Json.IsDocument`): its integers can be shown, no halves of a pair stand side by side in
its texts, and its mappings have text keys that differ.  Its collections are nested to
some depth (`Json.nesting`).

The parts of a document are documents, nested less deep (`Json.FitsIn.exists_items`,
`Json.FitsIn.exists_entries`), and a mapping with fixed keys is a document when its fields
are (`Json.fitsIn_present`).
-/

import MachineCatalog.Proofs.Json.Strings
import MachineCatalog.Proofs.Value.Fields

namespace MachineCatalog
namespace Json

open Text Value

/-! ### Documents -/

/-- A value that a JSON text without NaN and infinities can hold. -/
inductive IsDocument : Value → Prop
  | null : IsDocument .null
  | bool (b : Bool) : IsDocument (.bool b)
  | int {n : Int} (h : Value.isLongInteger n = false) : IsDocument (.int n)
  | float (negative : Bool) {rank : Fin (Binary64.infinityRank + 1)}
      (h : rank.val < Binary64.infinityRank) : IsDocument (.float (.signed negative rank))
  | text {t : Text} (h : IsPaired t) : IsDocument (.text t)
  | list {vs : List Value} (h : ∀ v ∈ vs, IsDocument v) : IsDocument (.list vs)
  | object {fields : List (Text × Value)} (hk : (fields.map Prod.fst).Nodup)
      (ht : ∀ f ∈ fields, IsPaired f.1) (h : ∀ f ∈ fields, IsDocument f.2) :
      IsDocument (.object fields)

mutual

/-- How deep collections are nested. -/
def nesting : Value → Nat
  | .list vs => nestingOfItems vs + 1
  | .mapping es => nestingOfEntries es + 1
  | _ => 0

/-- The same of the members of a list. -/
def nestingOfItems : List Value → Nat
  | [] => 0
  | v :: vs => max (nesting v) (nestingOfItems vs)

/-- The same of the values of a mapping. -/
def nestingOfEntries : List (Value × Value) → Nat
  | [] => 0
  | (_, v) :: es => max (nesting v) (nestingOfEntries es)

end

/-- The entries of a mapping with text keys. -/
abbrev entriesOf (fields : List (Text × Value)) : List (Value × Value) :=
  fields.map fun f => (.text f.1, f.2)

theorem nestingOfItems_le_iff {vs : List Value} {depth : Nat} :
    nestingOfItems vs ≤ depth ↔ ∀ v ∈ vs, nesting v ≤ depth := by
  induction vs with
  | nil => simp [nestingOfItems]
  | cons v vs ih => rw [nestingOfItems, max_le_iff, ih, List.forall_mem_cons]

theorem nestingOfEntries_le_iff {fields : List (Text × Value)} {depth : Nat} :
    nestingOfEntries (entriesOf fields) ≤ depth ↔ ∀ f ∈ fields, nesting f.2 ≤ depth := by
  induction fields with
  | nil => simp [nestingOfEntries]
  | cons f fields ih =>
    rw [entriesOf, List.map_cons, nestingOfEntries, max_le_iff, ih, List.forall_mem_cons]

/-! ### Parts of documents -/

/-- A document whose collections are nested at most that deep. -/
structure FitsIn (depth : Nat) (v : Value) : Prop where
  document : IsDocument v
  nesting_le : nesting v ≤ depth

theorem fitsIn_null (depth : Nat) : FitsIn depth .null := ⟨.null, Nat.zero_le _⟩

theorem fitsIn_int {n : Int} (h : Value.isLongInteger n = false) (depth : Nat) :
    FitsIn depth (.int n) := ⟨.int h, Nat.zero_le _⟩

theorem fitsIn_text {t : Text} (h : IsPaired t) (depth : Nat) : FitsIn depth (.text t) :=
  ⟨.text h, Nat.zero_le _⟩

theorem FitsIn.mono {depth more : Nat} {v : Value} (h : FitsIn depth v) (hle : depth ≤ more) :
    FitsIn more v := ⟨h.document, h.nesting_le.trans hle⟩

theorem fitsIn_list {depth : Nat} {vs : List Value} (h : ∀ v ∈ vs, FitsIn depth v) :
    FitsIn (depth + 1) (.list vs) := by
  refine ⟨.list fun v hv => (h v hv).document, ?_⟩
  rw [nesting, Nat.add_le_add_iff_right, nestingOfItems_le_iff]
  exact fun v hv => (h v hv).nesting_le

theorem fitsIn_object {depth : Nat} {fields : List (Text × Value)}
    (hk : (fields.map Prod.fst).Nodup) (ht : ∀ k ∈ fields.map Prod.fst, IsPaired k)
    (h : ∀ f ∈ fields, FitsIn depth f.2) : FitsIn (depth + 1) (.object fields) := by
  have hpaired : ∀ f ∈ fields, IsPaired f.1 := fun f hf => ht f.1 (List.mem_map_of_mem hf)
  refine ⟨.object hk hpaired fun f hf => (h f hf).document, ?_⟩
  rw [Value.object, nesting, Nat.add_le_add_iff_right, nestingOfEntries_le_iff]
  exact fun f hf => (h f hf).nesting_le

theorem FitsIn.isPaired {depth : Nat} {t : Text} (h : FitsIn depth (.text t)) : IsPaired t := by
  cases h.document with
  | text h => exact h

/-- **The members of a list are documents**, nested less deep. -/
theorem FitsIn.exists_items {depth : Nat} {v : Value} {vs : List Value} (h : FitsIn depth v)
    (hi : v.items? = some vs) :
    ∃ inner, depth = inner + 1 ∧ v = .list vs ∧ ∀ u ∈ vs, FitsIn inner u := by
  obtain ⟨hd, hn⟩ := h
  cases hd with
  | list hall =>
    obtain rfl := Option.some.inj hi
    rw [nesting] at hn
    obtain ⟨inner, rfl⟩ := Nat.exists_eq_add_of_le' (Nat.le_of_add_left_le hn)
    rw [Nat.add_le_add_iff_right, nestingOfItems_le_iff] at hn
    exact ⟨inner, rfl, rfl, fun u hu => ⟨hall u hu, hn u hu⟩⟩
  | _ => exact absurd hi (by simp [items?, opened, Value.object])

/-- **The values of a mapping are documents**, nested less deep. -/
theorem FitsIn.exists_entries {depth : Nat} {v : Value} {es : List (Value × Value)}
    (h : FitsIn depth v) (he : v.entries? = some es) :
    ∃ inner, depth = inner + 1 ∧ ∀ e ∈ es, FitsIn inner e.2 := by
  obtain ⟨hd, hn⟩ := h
  cases hd with
  | @object fields hk ht hall =>
    obtain rfl := Option.some.inj he
    rw [Value.object, nesting] at hn
    obtain ⟨inner, rfl⟩ := Nat.exists_eq_add_of_le' (Nat.le_of_add_left_le hn)
    rw [Nat.add_le_add_iff_right, nestingOfEntries_le_iff] at hn
    refine ⟨inner, rfl, fun e hm => ?_⟩
    obtain ⟨f, hf, rfl⟩ := List.mem_map.1 hm
    exact ⟨hall f hf, hn f hf⟩
  | _ => exact absurd he (by simp [entries?, opened])

/-- So is what is read under a key. -/
theorem fitsIn_get {depth : Nat} {es : List (Value × Value)} (h : ∀ e ∈ es, FitsIn depth e.2)
    (k : Text) : FitsIn depth (Value.get es k) := by
  rw [Value.get, get?]
  cases hf : es.find? fun e => e.1.isText k with
  | none => exact fitsIn_null depth
  | some e => exact h e (List.mem_of_find?_eq_some hf)

/-- **A mapping with fixed keys is a document when its fields are.** -/
theorem fitsIn_present {depth : Nat} {fields : List (Text × Option Value)}
    (hk : (fields.map Prod.fst).Nodup) (ht : ∀ k ∈ fields.map Prod.fst, IsPaired k)
    (h : ∀ f ∈ fields, ∀ v ∈ f.2, FitsIn depth v) :
    FitsIn (depth + 1) (.object (present fields)) := by
  refine fitsIn_object (nodup_keys_present hk) (fun k hmem => ?_) fun f hf => ?_
  · exact ht k ((keys_present_sublist fields).subset hmem)
  · obtain ⟨g, hg, hm⟩ := List.mem_filterMap.1 hf
    obtain ⟨v, hv, rfl⟩ := Option.map_eq_some_iff.1 hm
    exact h g hg v hv

/-! ### Texts without halves of pairs -/

/-- No code point is half of a pair. -/
def HasNoHalf (t : Text) : Prop := ∀ c ∈ t, c.isHalf = false

theorem hasNoHalf_ofChars (cs : List Char) : HasNoHalf (ofChars cs) := by
  rintro c hc
  obtain ⟨x, -, rfl⟩ := List.mem_map.1 hc
  exact CodePoint.isHalf_ofChar x

theorem hasNoHalf_ofString (s : String) : HasNoHalf s := hasNoHalf_ofChars s.toList

theorem HasNoHalf.append {s t : Text} (hs : HasNoHalf s) (ht : HasNoHalf t) :
    HasNoHalf (s ++ t) := fun c hc => (List.mem_append.1 hc).elim (hs c) (ht c)

/-- A text without halves has none side by side. -/
theorem HasNoHalf.isPaired {t : Text} (h : HasNoHalf t) : IsPaired t := by
  induction t with
  | nil => exact .nil
  | cons c t ih =>
    rw [HasNoHalf, List.forall_mem_cons] at h
    refine (ih h.2).cons fun d _ hcd => ?_
    rw [isHalf_of_isFirstHalf hcd.1] at h
    exact absurd h.1 (by decide)

theorem isPaired_ofString (s : String) : IsPaired s := (hasNoHalf_ofString s).isPaired

/-- A code point that is no half may stand between texts. -/
theorem isPaired_append_cons {s t : Text} {c : CodePoint} (hs : IsPaired s) (ht : IsPaired t)
    (hc : c.isHalf = false) : IsPaired (s ++ c :: t) := by
  refine List.isChain_append.2 ⟨hs, ht.cons fun d _ hcd => ?_, fun d _ e he hde => ?_⟩
  · rw [isHalf_of_isFirstHalf hcd.1] at hc
    exact absurd hc (by decide)
  · obtain rfl := Option.some.inj he
    rw [isHalf_of_isSecondHalf hde.2] at hc
    exact absurd hc (by decide)

end Json
end MachineCatalog
