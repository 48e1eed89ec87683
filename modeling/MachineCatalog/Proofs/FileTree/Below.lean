/-
# Paths below a directory

Putting names behind the path of a directory makes it longer (`octetCount_le_joinAll`).  The
names of the longer path are those of the directory and the new ones (`pathNames_join`).

Trees may have the same files and directories at all places (`SameEntries`) and yet list the
entries of their directories in different orders.
-/

import MachineCatalog.Proofs.FileTree
import MachineCatalog.Proofs.SelfLink

namespace MachineCatalog

theorem Text.octetCount_append (s t : Text) :
    (s ++ t).octetCount = s.octetCount + t.octetCount := by
  have hstart (width : CodePoint → Nat) (u : Text) (n : Nat) :
      u.foldl (fun n c => n + width c) n = n + u.foldl (fun n c => n + width c) 0 := by
    induction u generalizing n with
    | nil => rfl
    | cons c u ih =>
      rw [List.foldl_cons, List.foldl_cons, ih, ih (0 + width c)]
      omega
  rw [octetCount, List.foldl_append, hstart]
  rfl

namespace FileTree

open Identity (IsSegment segments_append segments_of_isSegment)

/-- The path of what is at a row of names below a directory. -/
def joinAll (path : Text) (names : List Text) : Text := names.foldl join path

@[simp] theorem joinAll_nil (path : Text) : joinAll path [] = path := rfl

/-- A name that an entry of a directory can have. -/
def IsEntryName (name : Text) : Prop := IsSegment name ∧ name ≠ "." ∧ name ≠ ".."

instance (name : Text) : Decidable (IsEntryName name) := by unfold IsEntryName; infer_instance

/-! ### Lengths -/

theorem octetCount_le_join (path name : Text) : path.octetCount ≤ (join path name).octetCount := by
  rw [join]
  split_ifs
  · rw [Text.octetCount_append]
    omega
  · rw [Text.octetCount_append, Text.octetCount_append]
    omega

/-- A path becomes no shorter by going down. -/
theorem octetCount_le_joinAll (path : Text) (names : List Text) :
    path.octetCount ≤ (joinAll path names).octetCount := by
  induction names generalizing path with
  | nil => exact Nat.le_refl _
  | cons name names ih => exact Nat.le_trans (octetCount_le_join path name) (ih _)

/-! ### What a path below finds -/

theorem subtree?_append (names more : List Text) (t : FileTree) :
    subtree? (names ++ more) t = (subtree? names t).bind (subtree? more) := by
  induction names generalizing t with
  | nil => rw [subtree?_nil]; rfl
  | cons name names ih =>
    rw [List.cons_append, subtree?_cons, subtree?_cons, Option.bind_assoc]
    simp only [ih]

/-- A joined path is the name alone, or the name behind a slash and what the path of the
directory is without a last slash. -/
theorem join_cases (directory name : Text) :
    directory = [] ∧ join directory name = name ∨
      ∃ front, (directory = front ∨ directory = front ++ [CodePoint.ofChar '/']) ∧
        join directory name = front ++ CodePoint.ofChar '/' :: name := by
  rw [join]
  split_ifs with h
  · rw [Bool.or_eq_true] at h
    rcases h with hempty | hslash
    · rw [List.isEmpty_iff] at hempty
      exact .inl ⟨hempty, by rw [hempty, List.nil_append]⟩
    · obtain ⟨front, rfl⟩ := List.isSuffixOf_iff_suffix.1 hslash
      exact .inr ⟨front, .inr rfl, by rw [List.append_assoc]; rfl⟩
  · exact .inr ⟨directory, .inl rfl, by rw [List.append_assoc]; rfl⟩

/-- The names of a joined path: those of the directory, without the empty one behind a last
slash, and the new one. -/
theorem pathNames_join {path name : Text} (hpath : path ≠ []) (hname : IsSegment name) :
    ∃ names, (pathNames path = names ∨ pathNames path = names ++ [[]]) ∧
      pathNames (join path name) = names ++ [name] := by
  obtain ⟨hempty, -⟩ | ⟨front, hdirectory, hjoin⟩ := join_cases path name
  · exact absurd hempty hpath
  · refine ⟨pathNames front, ?_, ?_⟩
    · rcases hdirectory with rfl | rfl
      · exact .inl rfl
      · exact .inr (segments_append front [])
    · rw [hjoin, pathNames, segments_append, segments_of_isSegment hname]
      rfl

/-- Staying in the last directory leads nowhere else. -/
theorem follow?_append_empty {root : FileTree} {place names p : List Text}
    (h : follow? root place (names ++ [[]]) = some p) : follow? root place names = some p := by
  rw [follow?_append] at h
  obtain ⟨q, hq, hstay⟩ := Option.bind_eq_some_iff.1 h
  by_cases hd : IsDirectoryAt q.reverse root
  · rw [follow?_cons hd] at hstay
    rw [hq]
    exact hstay
  · rw [follow?_cons_of_not_directory hd] at hstay
    cases hstay

@[simp] theorem entryAt?_nil (t : FileTree) : entryAt? [] t = some t.content? := by
  rw [entryAt?, subtree?_nil, Option.map_some]

theorem entryAt?_append (names more : List Text) (t : FileTree) :
    entryAt? (names ++ more) t = (subtree? names t).bind (entryAt? more) := by
  rw [entryAt?, subtree?_append]
  cases subtree? names t <;> rfl

theorem entryAt?_cons (name : Text) (names : List Text) (t : FileTree) :
    entryAt? (name :: names) t = (t.child? name).bind (entryAt? names) := by
  rw [entryAt?, subtree?_cons]
  cases t.child? name <;> rfl

/-! ### The same files and directories -/

/-- At every place the trees have the same file, or both a directory, or both nothing. -/
def SameEntries (a b : FileTree) : Prop := ∀ place, entryAt? place a = entryAt? place b

/-- What stands in one entry may be listed in another order. -/
theorem sameEntries_cons {t t' : FileTree} (h : SameEntries t t') (name : Text)
    (es : List (Text × FileTree)) :
    SameEntries (.directory ((name, t) :: es)) (.directory ((name, t') :: es)) := by
  intro place
  cases place with
  | nil => rw [entryAt?_nil, entryAt?_nil]; rfl
  | cons next names =>
    rw [entryAt?_cons, entryAt?_cons, child?_directory_cons, child?_directory_cons]
    split_ifs
    · exact h names
    · rfl

end FileTree
end MachineCatalog
