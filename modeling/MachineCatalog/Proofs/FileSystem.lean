/-
# Files by path

A path leads to a place over the directories that are there.  Writing a file makes and removes
no directory, so every path leads where it led before (`FileSystem.placeOf?_withRoot`).  Hence the
file that was written is found under its path, and whatever path leads to another place finds
the file that it found before (`FileSystem.writtenOnly_of_write?`).  Whether a file can be
opened does not depend on what is to be written (`FileSystem.canOpen_iff`).

Names behind the path of a directory lead to what is at those names below the directory, as
long as the path is not too long (`FileSystem.placeOf?_joinAll`).  With the same files and
directories at all places, all paths lead alike (`FileSystem.placeOf?_withRoot`) and find the
same (`FileSystem.read?_withRoot`).
-/

import MachineCatalog.FileSystem
import MachineCatalog.Proofs.FileTree.Below

namespace MachineCatalog
namespace FileSystem

open FileTree (AgreesExcept IsDirectoryAt IsEntryName SameEntries Writes entryAt?
  entryAt?_append follow? follow?_append follow?_append_empty follow?_cons follow?_congr
  isDirectoryAt_iff isFileName join joinAll octetCount_le_joinAll pathLimit pathNames
  pathNames_join subtree? subtree?_append subtree?_cons subtree?_nil writeAt?_isSome
  writes_of_writeAt?)

variable {fs after : FileSystem} {path : Text} {content : ByteArray}

/-- The content of the file that a path finds, whether or not it may be read. -/
def contentAt? (fs : FileSystem) (path : Text) : Option ByteArray :=
  (fs.find? path).bind FileTree.content?

theorem contentAt?_eq (fs : FileSystem) (path : Text) :
    fs.contentAt? path = (fs.placeOf? path).bind fun p => (entryAt? p fs.root).join := by
  rw [contentAt?, find?]
  cases fs.placeOf? path with
  | none => rfl
  | some place =>
    rw [Option.bind_some, Option.bind_some, entryAt?]
    cases subtree? place fs.root <;> rfl

/-- A file that may be read is read. -/
theorem read?_eq (fs : FileSystem) (path : Text) :
    fs.read? path = if (fs.placeOf? path).any fs.readable then fs.contentAt? path else none := by
  rw [read?, contentAt?, find?]
  cases fs.placeOf? path with
  | none => rfl
  | some place =>
    cases ht : subtree? place fs.root with
    | none => simp [ht]
    | some t => simp [ht]

theorem contentAt?_of_read? (h : fs.read? path = some content) :
    fs.contentAt? path = some content := by
  rw [read?_eq] at h
  split_ifs at h
  exact h

theorem contains_of_read? (h : fs.read? path = some content) : fs.contains path = true := by
  have hthere := contentAt?_of_read? h
  rw [contentAt?] at hthere
  obtain ⟨t, ht, -⟩ := Option.bind_eq_some_iff.1 hthere
  rw [contains, ht]
  rfl

/-- Paths lead alike over the same directories. -/
theorem placeOf?_withRoot {root : FileTree}
    (h : ∀ names, IsDirectoryAt names root ↔ IsDirectoryAt names fs.root) (path : Text) :
    placeOf? { fs with root := root } path = fs.placeOf? path := by
  rw [placeOf?, placeOf?, follow?_congr h]
  rfl

/-- A path leads to the place at which it has a file opened, once there is a directory. -/
theorem placeOf?_of_target? {place : List Text} (h : fs.target? path = some place)
    (hd : ∀ names name, place = names ++ [name] → IsDirectoryAt names fs.root) :
    fs.placeOf? path = some place := by
  unfold target? at h
  split_ifs at h with hreach
  split at h
  · cases h
  · rename_i name above hnames
    split_ifs at h with hname
    obtain ⟨p, hp, rfl⟩ := Option.map_eq_some_iff.1 h
    have hpath : pathNames path = above.reverse ++ [name] := by
      rw [← List.reverse_reverse (pathNames path), hnames, List.reverse_cons]
    obtain ⟨⟨⟨hempty, hdot⟩, hdots⟩, -⟩ : ((name ≠ "" ∧ name ≠ ".") ∧ name ≠ "..") ∧ _ := by
      simpa [isFileName] using hname
    have hlast : follow? fs.root p [name] = some (name :: p) := by
      rw [follow?_cons (hd _ _ rfl), if_neg (by simp [hempty, hdot]), if_neg hdots, follow?]
    rw [placeOf?, if_pos hreach, hpath, follow?_append, hp, Option.bind_some, hlast,
      Option.map_some, List.reverse_cons]

/-- **A file is written at the place to which its path leads.** -/
theorem exists_writes_of_write? (h : fs.write? path content = some after) :
    ∃ place root, fs.placeOf? path = some place ∧ Writes content place fs.root root ∧
      after = { fs with root := root } := by
  obtain ⟨place, hplace, h⟩ := Option.bind_eq_some_iff.1 h
  split_ifs at h
  obtain ⟨root, hroot, rfl⟩ := Option.map_eq_some_iff.1 h
  have hw : Writes content place fs.root root := writes_of_writeAt? hroot
  refine ⟨place, root, placeOf?_of_target? hplace ?_, hw, rfl⟩
  rintro names name rfl
  exact hw.isDirectoryAt

/-- One file has the content now, and nothing else is different: neither what any other path
finds, nor any directory, nor a file that no path finds, nor what the process may do. -/
structure WrittenOnly (path : Text) (content : ByteArray) (before after : FileSystem) : Prop where
  written : after.contentAt? path = some content
  elsewhere : ∀ other, before.placeOf? other ≠ before.placeOf? path →
    after.contentAt? other = before.contentAt? other
  places : ∃ place, before.placeOf? path = some place ∧ AgreesExcept place before.root after.root
  process : after = { before with root := after.root }

/-- **Writing a file changes that file only.** -/
theorem writtenOnly_of_write? (h : fs.write? path content = some after) :
    WrittenOnly path content fs after := by
  obtain ⟨place, root, hplace, hw, rfl⟩ := exists_writes_of_write? h
  have hleads := placeOf?_withRoot hw.isDirectoryAt_iff
  refine ⟨?_, fun other hne => ?_, ⟨place, hplace, hw.agreesExcept⟩, rfl⟩
  · rw [contentAt?_eq, hleads, hplace, Option.bind_some, entryAt?, hw.subtree?_self]
    rfl
  · rw [contentAt?_eq, contentAt?_eq, hleads]
    cases hother : fs.placeOf? other with
    | none => rfl
    | some p =>
      have hp : p ≠ place := fun he => hne (by rw [hother, hplace, he])
      rw [Option.bind_some, Option.bind_some, hw.agreesExcept p hp]

/-- Whether a file can be opened for writing at a path. -/
def CanOpen (fs : FileSystem) (path : Text) : Prop := (fs.write? path .empty).isSome

theorem canOpen_iff (fs : FileSystem) (path : Text) (content : ByteArray) :
    fs.CanOpen path ↔ ∃ after, fs.write? path content = some after := by
  have hsame : (fs.write? path .empty).isSome = (fs.write? path content).isSome := by
    rw [write?, write?]
    cases fs.target? path with
    | none => rfl
    | some place =>
      simp only [Option.bind_eq_bind, Option.bind_some]
      split_ifs
      · rw [Option.isSome_map, Option.isSome_map, writeAt?_isSome]
      · rfl
  rw [CanOpen, hsame, Option.isSome_iff_exists]

/-! ### Paths below a directory -/

section Below

variable {name : Text} {place : List Text}

/-- A path that goes on below another one starts where that one does. -/
theorem start_join (fs : FileSystem) (h : path ≠ []) (name : Text) :
    fs.start (join path name) = fs.start path := by
  cases path with
  | nil => exact absurd rfl h
  | cons c path =>
    have hjoin : ∃ rest, join (c :: path) name = c :: rest := by
      rw [join]
      split_ifs
      · exact ⟨path ++ name, rfl⟩
      · exact ⟨path ++ "/" ++ name, rfl⟩
    obtain ⟨rest, hrest⟩ := hjoin
    rw [hrest]
    rfl

theorem ne_nil_of_isReachable (h : isReachable path = true) : path ≠ [] := by
  rintro rfl
  cases h

theorem isReachable_join (h : path ≠ []) (hlen : (join path name).octetCount < pathLimit) :
    isReachable (join path name) = true := by
  have hne : join path name ≠ [] := by
    rw [join]
    split_ifs
    · exact List.append_ne_nil_of_left_ne_nil h name
    · exact List.append_ne_nil_of_left_ne_nil (List.append_ne_nil_of_left_ne_nil h _) name
  simp [isReachable, hne, hlen]

theorem placeOf?_join (h : fs.placeOf? path = some place) (hd : IsDirectoryAt place fs.root)
    (hname : IsEntryName name) (hlen : (join path name).octetCount < pathLimit) :
    fs.placeOf? (join path name) = some (place ++ [name]) := by
  obtain ⟨hsegment, hdot, hdots⟩ := hname
  rw [placeOf?] at h
  split_ifs at h with hreach
  obtain ⟨p, hp, rfl⟩ := Option.map_eq_some_iff.1 h
  have hne := ne_nil_of_isReachable hreach
  obtain ⟨names, hnames, hjoin⟩ := pathNames_join hne hsegment
  have hfollow : follow? fs.root (fs.start path) names = some p := by
    rcases hnames with hnames | hnames
    · rw [← hnames, hp]
    · exact follow?_append_empty (by rw [← hnames, hp])
  have hlast : follow? fs.root p [name] = some (name :: p) := by
    have hempty : name ≠ "" := hsegment.1
    rw [follow?_cons hd, if_neg (by simp [hempty, hdot]), if_neg hdots, follow?]
  rw [placeOf?, if_pos (isReachable_join hne hlen), hjoin, start_join fs hne, follow?_append,
    hfollow, Option.bind_some, hlast, Option.map_some, List.reverse_cons]

/-- **A path below a directory leads to the place of its names there**, unless it is too
long. -/
theorem placeOf?_joinAll {t u : FileTree} {names : List Text} (h : fs.placeOf? path = some place)
    (ht : subtree? place fs.root = some t) (hsub : subtree? names t = some u)
    (hnames : ∀ name ∈ names, IsEntryName name)
    (hlen : (joinAll path names).octetCount < pathLimit) :
    fs.placeOf? (joinAll path names) = some (place ++ names) := by
  induction names generalizing path place t with
  | nil =>
    rw [List.append_nil]
    exact h
  | cons name names ih =>
    rw [List.forall_mem_cons] at hnames
    rw [subtree?_cons] at hsub
    obtain ⟨next, hnext, hrest⟩ := Option.bind_eq_some_iff.1 hsub
    cases t with
    | file content => cases hnext
    | directory es =>
      have hshort : (join path name).octetCount < pathLimit :=
        Nat.lt_of_le_of_lt (octetCount_le_joinAll _ names) hlen
      have hthere : subtree? (place ++ [name]) fs.root = some next := by
        rw [subtree?_append, ht, Option.bind_some, subtree?_cons, hnext]
        exact subtree?_nil next
      have hplace := placeOf?_join h (isDirectoryAt_iff.2 ⟨es, ht⟩) hnames.1 hshort
      rw [List.append_cons]
      exact ih hplace hthere hrest hnames.2 hlen

/-- What is found below a directory is read when it may be read. -/
theorem read?_joinAll {t : FileTree} {names : List Text} (h : fs.placeOf? path = some place)
    (ht : subtree? place fs.root = some t) (hsub : subtree? names t = some (.file content))
    (hnames : ∀ name ∈ names, IsEntryName name)
    (hlen : (joinAll path names).octetCount < pathLimit) :
    fs.read? (joinAll path names) =
      if fs.readable (place ++ names) then some content else none := by
  have hthere : subtree? (place ++ names) fs.root = some (.file content) := by
    rw [subtree?_append, ht, Option.bind_some, hsub]
  rw [read?, placeOf?_joinAll h ht hsub hnames hlen]
  simp only [Option.bind_eq_bind, Option.bind_some, hthere]
  rfl

/-- Nothing is read under a path that is too long. -/
theorem read?_of_pathLimit_le (h : pathLimit ≤ path.octetCount) (fs : FileSystem) :
    fs.read? path = none := by
  have hreach : isReachable path = false := by
    rw [isReachable, decide_eq_false (Nat.not_lt.2 h), Bool.and_false]
  rw [read?, placeOf?, hreach]
  rfl

end Below

/-! ### The same files and directories -/

section SameEntries

variable {root : FileTree}

theorem placeOf?_of_sameEntries (h : SameEntries root fs.root) (path : Text) :
    placeOf? { fs with root := root } path = fs.placeOf? path :=
  placeOf?_withRoot (fun names => by rw [IsDirectoryAt, IsDirectoryAt, h names]) path

/-- Of two listings of the same files every path reads the same. -/
theorem read?_withRoot (h : SameEntries root fs.root) (path : Text) :
    read? { fs with root := root } path = fs.read? path := by
  rw [read?_eq, read?_eq, contentAt?_eq, contentAt?_eq, placeOf?_of_sameEntries h]
  simp only [show ∀ place, entryAt? place root = entryAt? place fs.root from h]

/-- What two listings of the same files have at one path are trees with the same entries. -/
theorem sameEntries_of_find? {t u : FileTree} (h : SameEntries root fs.root)
    (ht : find? { fs with root := root } path = some t) (hu : fs.find? path = some u) :
    SameEntries t u := by
  rw [find?, placeOf?_of_sameEntries h] at ht
  obtain ⟨place, hplace, ht⟩ := Option.bind_eq_some_iff.1 ht
  obtain ⟨place', hplace', hu⟩ := Option.bind_eq_some_iff.1 hu
  obtain rfl : place = place' := Option.some.inj (by rw [← hplace, ← hplace'])
  intro names
  have hsame := h (place ++ names)
  rw [entryAt?_append, entryAt?_append, ht, hu] at hsame
  exact hsame

end SameEntries

end FileSystem
end MachineCatalog
