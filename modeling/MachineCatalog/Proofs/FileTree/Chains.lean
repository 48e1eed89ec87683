/-
# Chains of directories

Where every directory has at most one directory among its entries (`IsChain`), the files below
have one order that does not depend on how the entries are listed (`Precedes`): those of one
directory by name, and before those further down.  Files can be put in that order in one way
only (`eq_of_pairwise_precedes`).
-/

import MachineCatalog.Proofs.FileTree.Below

namespace MachineCatalog
namespace FileTree

variable {path name : Text} {es : List (Text × FileTree)} {t : FileTree}

/-! ### Directories in directories -/

/-- Whether the tree is a directory. -/
def isDirectory : FileTree → Bool
  | .file _ => false
  | .directory _ => true

/-- The directories among entries. -/
def directoriesOf (es : List (Text × FileTree)) : List (Text × FileTree) :=
  es.filter fun e => e.2.isDirectory

/-- A tree in which the entries of every directory have names of their own, and at most one of
them is a directory. -/
inductive IsChain : FileTree → Prop
  | file (content : ByteArray) : IsChain (.file content)
  | directory {es : List (Text × FileTree)} (named : ∀ e ∈ es, IsEntryName e.1)
    (distinct : (es.map (·.1)).Nodup) (single : (directoriesOf es).length ≤ 1)
    (inner : ∀ e ∈ es, IsChain e.2) : IsChain (.directory es)

theorem mem_filesOf {content : ByteArray} :
    (name, content) ∈ filesOf es ↔ (name, FileTree.file content) ∈ es := by
  induction es with
  | nil => rw [filesOf, List.mem_nil_iff, List.mem_nil_iff]
  | cons e es ih =>
    obtain ⟨n, _ | _⟩ := e
    · rw [filesOf, List.mem_cons, List.mem_cons, ih]
      simp
    · rw [filesOf, List.mem_cons, ih]
      simp

theorem sublist_filesOf (es : List (Text × FileTree)) :
    ((filesOf es).map (·.1)).Sublist (es.map (·.1)) := by
  induction es with
  | nil => rw [filesOf]; exact List.Sublist.slnil
  | cons e es ih =>
    obtain ⟨n, _ | _⟩ := e
    · rw [filesOf]
      exact ih.cons_cons n
    · rw [filesOf]
      exact ih.cons n

theorem walkEntries_eq (path : Text) (es : List (Text × FileTree)) :
    walkEntries path es = (directoriesOf es).flatMap fun e => walk (join path e.1) e.2 := by
  induction es with
  | nil => rw [walkEntries]; rfl
  | cons e es ih =>
    obtain ⟨n, _ | _⟩ := e
    · rw [walkEntries, walk, List.nil_append, ih]
      rfl
    · rw [walkEntries, ih]
      rfl

theorem child?_eq_some_iff (h : (es.map (·.1)).Nodup) :
    (directory es).child? name = some t ↔ (name, t) ∈ es := by
  induction es with
  | nil => rw [child?_directory_nil]; simp
  | cons e es ih =>
    rw [List.map_cons, List.nodup_cons] at h
    rw [child?_directory_cons, List.mem_cons]
    split_ifs with he
    · have hnot : (name, t) ∉ es := fun hm => h.1 (List.mem_map.2 ⟨_, hm, he.symm⟩)
      obtain ⟨n, u⟩ := e
      obtain rfl : n = name := he
      simp [hnot, eq_comm]
    · rw [ih h.2]
      have hne : (name, t) ≠ e := fun heq => he (congrArg Prod.fst heq).symm
      simp [hne]

theorem IsChain.isEntryName {names : List Text} {u : FileTree} (h : t.IsChain)
    (hsub : subtree? names t = some u) : ∀ name ∈ names, IsEntryName name := by
  induction names generalizing t with
  | nil => exact List.forall_mem_nil _
  | cons name names ih =>
    rw [subtree?_cons] at hsub
    obtain ⟨next, hnext, hrest⟩ := Option.bind_eq_some_iff.1 hsub
    cases h with
    | file content => cases hnext
    | directory named distinct single inner =>
      have hmem := (child?_eq_some_iff distinct).1 hnext
      exact List.forall_mem_cons.2 ⟨named _ hmem, ih (inner _ hmem) hrest⟩

/-- Listed in another order, the entries of a directory are the same. -/
theorem sameEntries_of_perm {es' : List (Text × FileTree)} (h : es.Perm es')
    (hdistinct : (es.map (·.1)).Nodup) : SameEntries (.directory es) (.directory es') := by
  have hdistinct' : (es'.map (·.1)).Nodup := (h.map _).nodup_iff.1 hdistinct
  intro place
  cases place with
  | nil => rw [entryAt?_nil, entryAt?_nil]; rfl
  | cons name names =>
    have hchild : (directory es).child? name = (directory es').child? name := by
      refine Option.ext fun u => ?_
      rw [child?_eq_some_iff hdistinct, child?_eq_some_iff hdistinct', h.mem_iff]
    rw [entryAt?_cons, entryAt?_cons, hchild]

theorem isChain_of_perm {es' : List (Text × FileTree)} (h : es.Perm es')
    (hchain : IsChain (.directory es)) : IsChain (.directory es') := by
  cases hchain with
  | directory named distinct single inner =>
    refine .directory (fun e he => named e (h.mem_iff.2 he)) ((h.map _).nodup_iff.1 distinct) ?_
      fun e he => inner e (h.mem_iff.2 he)
    exact (h.filter _).length_eq ▸ single

/-! ### The order of files -/

/-- The one file comes before the other: they are in one directory and so are their names, or
the other one is further down. -/
def Precedes (p q : List Text) : Prop :=
  ∃ names a b rest, p = names ++ [a] ∧ q = names ++ b :: rest ∧ (rest = [] → a < b)

theorem Precedes.cons {p q : List Text} (h : Precedes p q) (name : Text) :
    Precedes (name :: p) (name :: q) := by
  obtain ⟨names, a, b, rest, rfl, rfl, hlt⟩ := h
  exact ⟨name :: names, a, b, rest, rfl, rfl, hlt⟩

theorem Precedes.asymm {p q : List Text} (h : Precedes p q) : ¬Precedes q p := by
  obtain ⟨names, a, b, rest, rfl, hq, hlt⟩ := h
  rintro ⟨names', a', b', rest', rfl, hp, hlt'⟩
  -- of two files that come before each other neither is further down
  have hlen := congrArg List.length hq
  have hlen' := congrArg List.length hp
  simp only [List.length_append, List.length_cons, List.length_nil] at hlen hlen'
  obtain rfl : rest = [] := List.length_eq_zero_iff.1 (by omega)
  obtain rfl : rest' = [] := List.length_eq_zero_iff.1 (by omega)
  obtain ⟨-, hba⟩ := List.append_inj' hq rfl
  obtain ⟨-, hab⟩ := List.append_inj' hp rfl
  obtain rfl : a' = b := List.head_eq_of_cons_eq hba
  obtain rfl : a = b' := List.head_eq_of_cons_eq hab
  exact List.lt_asymm (hlt rfl) (hlt' rfl)

theorem nodup_of_pairwise_precedes {places : List (List Text)} (h : places.Pairwise Precedes) :
    places.Nodup := by
  refine h.imp fun hpq heq => ?_
  subst heq
  exact hpq.asymm hpq

/-- Files that are put in order can be put in no other order. -/
theorem eq_of_pairwise_precedes {places places' : List (List Text)}
    (h : places.Pairwise Precedes) (h' : places'.Pairwise Precedes)
    (hmem : ∀ place, place ∈ places ↔ place ∈ places') : places = places' := by
  have hperm : places.Perm places' := (List.perm_ext_iff_of_nodup
    (nodup_of_pairwise_precedes h) (nodup_of_pairwise_precedes h')).2 hmem
  exact hperm.eq_of_pairwise (fun p q _ _ hpq hqp => absurd hqp hpq.asymm) h h'

end FileTree
end MachineCatalog
