/-
# What writing a file changes

Writing a file at a place puts its content there (`Writes.subtree?_self`) and leaves all other
files and all directories as they are (`Writes.agreesExcept`).  It makes and removes no
directory (`Writes.isDirectoryAt_iff`), and paths are followed over directories only
(`follow?_congr`).
-/

import MachineCatalog.FileTree
import Mathlib.Data.Option.Basic
import Mathlib.Tactic.SplitIfs

namespace MachineCatalog
namespace FileTree

/-- What is at a place: a file with its content, or a directory. -/
def entryAt? (place : List Text) (root : FileTree) : Option (Option ByteArray) :=
  (subtree? place root).map content?

/-- The same files and directories, apart from what is at one place. -/
def AgreesExcept (place : List Text) (before after : FileTree) : Prop :=
  ∀ names, names ≠ place → entryAt? names after = entryAt? names before

/-! ### Places -/

@[simp] theorem child?_file (content : ByteArray) (name : Text) :
    (FileTree.file content).child? name = none := rfl

theorem child?_directory_nil (name : Text) : (directory []).child? name = none := rfl

theorem child?_directory_cons (name : Text) (e : Text × FileTree) (es : List (Text × FileTree)) :
    (directory (e :: es)).child? name =
      if e.1 = name then some e.2 else (directory es).child? name := by
  unfold child? entries
  rw [List.find?_cons]
  by_cases h : e.1 = name
  · simp [h]
  · simp [h]

/-- Putting an entry into a directory changes what is there under its name only. -/
theorem child?_putEntry (name other : Text) (t : FileTree) (es : List (Text × FileTree)) :
    (directory (putEntry name t es)).child? other =
      if name = other then some t else (directory es).child? other := by
  induction es with
  | nil => rw [putEntry, child?_directory_cons, child?_directory_nil]
  | cons e es ih =>
    rw [putEntry, child?_directory_cons other e es]
    by_cases he : e.1 = name
    · rw [if_pos he, child?_directory_cons, he]
      split_ifs <;> rfl
    · rw [if_neg he, child?_directory_cons, ih]
      split_ifs with h₁ h₂
      · exact absurd (h₁.trans h₂.symm) he
      · rfl
      · rfl
      · rfl

@[simp] theorem subtree?_nil (t : FileTree) : subtree? [] t = some t := by
  unfold subtree?
  rfl

theorem subtree?_cons (name : Text) (names : List Text) (t : FileTree) :
    subtree? (name :: names) t = (t.child? name).bind (subtree? names) := by
  rw [subtree?]

theorem subtree?_cons_putEntry (name : Text) (names : List Text) (t : FileTree)
    (es : List (Text × FileTree)) :
    subtree? (name :: names) (directory (putEntry name t es)) = subtree? names t := by
  rw [subtree?_cons, child?_putEntry, if_pos rfl, Option.bind_some]

theorem subtree?_cons_putEntry_of_ne {name other : Text} (h : name ≠ other) (names : List Text)
    (t : FileTree) (es : List (Text × FileTree)) :
    subtree? (other :: names) (directory (putEntry name t es)) =
      subtree? (other :: names) (directory es) := by
  rw [subtree?_cons, subtree?_cons, child?_putEntry, if_neg h]

/-- Nothing is below a file. -/
theorem subtree?_cons_file (name : Text) (names : List Text) (content : ByteArray) :
    subtree? (name :: names) (.file content) = none := by
  rw [subtree?_cons, child?_file, Option.bind_none]

/-! ### Writing at a place -/

/-- What writing does: the last directory of the place gets the file, in the stead of a file or
of nothing. -/
inductive Writes (content : ByteArray) : List Text → FileTree → FileTree → Prop
  | replacing {name : Text} {es : List (Text × FileTree)}
    (h : ∀ t, (directory es).child? name = some t → ∃ old, t = .file old) :
    Writes content [name] (.directory es) (.directory (putEntry name (.file content) es))
  | inside {name : Text} {names : List Text} {es : List (Text × FileTree)} {t t' : FileTree}
    (h : (directory es).child? name = some t) (ht : Writes content names t t') :
    Writes content (name :: names) (.directory es) (.directory (putEntry name t' es))

theorem writes_of_writeAt? {place : List Text} {content : ByteArray} {before after : FileTree}
    (h : writeAt? place content before = some after) : Writes content place before after := by
  induction place generalizing before after with
  | nil =>
    cases before with
    | file old => simp [writeAt?] at h
    | directory es => simp [writeAt?] at h
  | cons name names ih =>
    cases before with
    | file old => simp [writeAt?] at h
    | directory es =>
      cases names with
      | nil =>
        rw [writeAt?] at h
        split at h
        · simp at h
        · rename_i hdir
          obtain rfl := Option.some.inj h
          refine .replacing fun t ht => ?_
          cases t with
          | file old => exact ⟨old, rfl⟩
          | directory fs => exact absurd ht (hdir fs)
      | cons next names =>
        rw [writeAt?.eq_4 _ _ _ _ (by simp)] at h
        obtain ⟨t, ht, h⟩ := Option.bind_eq_some_iff.1 h
        obtain ⟨t', ht', h⟩ := Option.bind_eq_some_iff.1 h
        obtain rfl := Option.some.inj h
        exact .inside ht (ih ht')

variable {place : List Text} {content : ByteArray} {before after : FileTree}

/-- **The file is where it was written.** -/
theorem Writes.subtree?_self (h : Writes content place before after) :
    subtree? place after = some (.file content) := by
  induction h with
  | replacing h => rw [subtree?_cons_putEntry, subtree?_nil]
  | inside h ht ih => rw [subtree?_cons_putEntry, ih]

/-- No directory stood where the file was written. -/
theorem Writes.entryAt?_ne_directory (h : Writes content place before after) :
    entryAt? place before ≠ some none := by
  induction h with
  | @replacing name es h =>
    rw [entryAt?, subtree?_cons]
    cases hc : (directory es).child? name with
    | none => simp
    | some t =>
      obtain ⟨old, rfl⟩ := h t hc
      simp [content?]
  | inside h ht ih =>
    rw [entryAt?, subtree?_cons, h]
    exact ih

/-- **All else is as it was.** -/
theorem Writes.agreesExcept (h : Writes content place before after) :
    AgreesExcept place before after := by
  induction h with
  | @replacing name es h =>
    intro names hne
    cases names with
    | nil => simp [entryAt?, content?]
    | cons other names =>
      by_cases heq : name = other
      · subst heq
        cases names with
        | nil => exact absurd rfl hne
        | cons next names =>
          -- below a file there is nothing, neither before nor after
          rw [entryAt?, entryAt?, subtree?_cons_putEntry, subtree?_cons_file, subtree?_cons]
          cases hc : (directory es).child? name with
          | none => rfl
          | some t =>
            obtain ⟨old, rfl⟩ := h t hc
            rw [Option.bind_some, subtree?_cons_file]
      · rw [entryAt?, entryAt?, subtree?_cons_putEntry_of_ne heq]
  | @inside name place es t t' h ht ih =>
    intro names hne
    cases names with
    | nil => simp [entryAt?, content?]
    | cons other names =>
      by_cases heq : name = other
      · subst heq
        have hbelow : entryAt? names t' = entryAt? names t := ih names fun hp => hne (by rw [hp])
        rw [entryAt?, entryAt?, subtree?_cons_putEntry, subtree?_cons, h, Option.bind_some]
        exact hbelow
      · rw [entryAt?, entryAt?, subtree?_cons_putEntry_of_ne heq]

/-! ### Paths -/

/-- A directory is at the place. -/
def IsDirectoryAt (place : List Text) (root : FileTree) : Prop := entryAt? place root = some none

theorem isDirectoryAt_iff {root : FileTree} :
    IsDirectoryAt place root ↔ ∃ es, subtree? place root = some (.directory es) := by
  unfold IsDirectoryAt entryAt?
  cases subtree? place root with
  | none => simp
  | some t => cases t <;> simp [content?]

/-- A file is written into a directory. -/
theorem Writes.isDirectoryAt {names : List Text} {name : Text}
    (h : Writes content (names ++ [name]) before after) : IsDirectoryAt names before := by
  induction names generalizing before after with
  | nil =>
    cases h with
    | replacing h => simp [IsDirectoryAt, entryAt?, content?]
    | inside h ht => simp [IsDirectoryAt, entryAt?, content?]
  | cons next names ih =>
    generalize hp : next :: names ++ [name] = place at h
    cases h with
    | replacing h => simp at hp
    | @inside next' place es t t' h ht =>
      obtain ⟨rfl, rfl⟩ := List.cons.inj hp
      rw [IsDirectoryAt, entryAt?, subtree?_cons, h]
      exact ih ht

/-- Writing makes no directory and removes none. -/
theorem Writes.isDirectoryAt_iff (h : Writes content place before after) (names : List Text) :
    IsDirectoryAt names after ↔ IsDirectoryAt names before := by
  by_cases hn : names = place
  · subst hn
    constructor
    · intro hd
      rw [IsDirectoryAt, entryAt?, h.subtree?_self] at hd
      simp [content?] at hd
    · intro hd
      exact absurd hd h.entryAt?_ne_directory
  · rw [IsDirectoryAt, IsDirectoryAt, h.agreesExcept names hn]

theorem follow?_cons_of_not_directory {root : FileTree} {names : List Text} {name : Text}
    (h : ¬IsDirectoryAt place.reverse root) : follow? root place (name :: names) = none := by
  cases ht : subtree? place.reverse root with
  | none => rw [follow?, ht]
  | some t =>
    cases t with
    | file content => rw [follow?, ht]
    | directory es => exact absurd (isDirectoryAt_iff.2 ⟨es, ht⟩) h

theorem follow?_cons {root : FileTree} {names : List Text} {name : Text}
    (h : IsDirectoryAt place.reverse root) :
    follow? root place (name :: names) =
      if name = "" || name = "." then follow? root place names
      else if name = ".." then follow? root place.tail names
      else follow? root (name :: place) names := by
  obtain ⟨es, hes⟩ := FileTree.isDirectoryAt_iff.1 h
  rw [follow?, hes]

/-- Paths are followed over directories only. -/
theorem follow?_congr {a b : FileTree} (h : ∀ names, IsDirectoryAt names a ↔ IsDirectoryAt names b)
    (place names : List Text) : follow? a place names = follow? b place names := by
  induction names generalizing place with
  | nil => rw [follow?, follow?]
  | cons name names ih =>
    by_cases hd : IsDirectoryAt place.reverse a
    · rw [follow?_cons hd, follow?_cons ((h _).1 hd)]
      simp only [ih]
    · rw [follow?_cons_of_not_directory hd, follow?_cons_of_not_directory fun hb => hd ((h _).2 hb)]

theorem follow?_append (root : FileTree) (place names more : List Text) :
    follow? root place (names ++ more) =
      (follow? root place names).bind fun p => follow? root p more := by
  induction names generalizing place with
  | nil => rw [follow?]; rfl
  | cons name names ih =>
    rw [List.cons_append]
    by_cases hd : IsDirectoryAt place.reverse root
    · rw [follow?_cons hd, follow?_cons hd]
      simp only [ih]
      split_ifs <;> rfl
    · rw [follow?_cons_of_not_directory hd, follow?_cons_of_not_directory hd]
      rfl

/-! ### Opening files -/

/-- Whether a file can be opened does not depend on what is to be written. -/
theorem writeAt?_isSome (place : List Text) (a b : ByteArray) (root : FileTree) :
    (writeAt? place a root).isSome = (writeAt? place b root).isSome := by
  induction place generalizing root with
  | nil => cases root <;> simp [writeAt?]
  | cons name names ih =>
    cases root with
    | file old => simp [writeAt?]
    | directory es =>
      cases names with
      | nil =>
        rw [writeAt?, writeAt?]
        split <;> rfl
      | cons next names =>
        rw [writeAt?.eq_4 _ _ _ _ (by simp), writeAt?.eq_4 _ _ _ _ (by simp)]
        cases (directory es).child? name with
        | none => rfl
        | some t =>
          have ht := ih t
          cases ha : writeAt? (next :: names) a t <;> cases hb : writeAt? (next :: names) b t <;>
            simp_all

end FileTree
end MachineCatalog
