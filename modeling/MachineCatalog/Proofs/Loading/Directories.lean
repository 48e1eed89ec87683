/-
# What is read from a directory

In a tree whose directories have at most one directory each, the documents are read in one
order (`FileTree.Precedes`), whatever order the directories list their entries in: those of a
directory by name, and after them those of the directory in it.  Every document is visited
exactly once (`exists_visits`).

Reading them comes to what reading one after the other comes to (`Concatenates`), up to the
first of which the reading fails (`parsePath_directory`).  That is so on any console, also on one
that refuses what a file has it told.
-/

import MachineCatalog.Proofs.FileSystem
import MachineCatalog.Proofs.FileTree.Chains
import MachineCatalog.Proofs.Loading.Files
import MachineCatalog.Proofs.Markup
import MachineCatalog.Proofs.Report.Zones

namespace MachineCatalog
namespace Loading

open FileTree

variable {path name : Text} {es : List (Text × FileTree)} {t : FileTree}

/-! ### The documents of one directory -/

/-- The names of the documents among the entries of a directory, in order. -/
def documentNames (es : List (Text × FileTree)) : List Text :=
  (((filesOf es).map (·.1)).mergeSort nameLe).filter isDocumentName

theorem mem_documentNames :
    name ∈ documentNames es ↔
      isDocumentName name = true ∧ ∃ content, (name, FileTree.file content) ∈ es := by
  rw [documentNames, List.mem_filter, (List.mergeSort_perm _ _).mem_iff, List.mem_map, and_comm]
  refine and_congr_right fun _ => ⟨?_, ?_⟩
  · rintro ⟨⟨n, content⟩, hm, rfl⟩
    exact ⟨content, mem_filesOf.1 hm⟩
  · rintro ⟨content, hm⟩
    exact ⟨(name, content), mem_filesOf.2 hm, rfl⟩

/-- The names are in order, each once. -/
theorem pairwise_documentNames (h : (es.map (·.1)).Nodup) :
    (documentNames es).Pairwise (· < ·) := by
  have hsorted : (((filesOf es).map (·.1)).mergeSort nameLe).Pairwise
      fun a b => Report.textLe a b = true := Report.pairwise_sortedBy id _
  have hnodup : (((filesOf es).map (·.1)).mergeSort nameLe).Nodup :=
    (List.mergeSort_perm _ _).nodup_iff.2 (h.sublist (sublist_filesOf es))
  have hlt := hsorted.imp₂ (fun a b => Report.lt_of_textLe_of_ne) hnodup
  exact hlt.filter _

theorem documentPaths_file (path : Text) (content : ByteArray) :
    documentPaths path (.file content) = [] := by
  rw [documentPaths, walk]
  rfl

theorem documentPaths_directory (path : Text) (es : List (Text × FileTree)) :
    documentPaths path (.directory es) =
      if path.octetCount < pathLimit then
        (documentNames es).map (join path) ++
          (directoriesOf es).flatMap fun e => documentPaths (join path e.1) e.2
      else [] := by
  rw [documentPaths, walk]
  split_ifs
  · rw [List.flatMap_cons, walkEntries_eq, List.flatMap_assoc]
    rfl
  · rfl

/-! ### The documents below a directory -/

/-- A document is at the place below the path: a file with the name of one, in a directory whose
path is not too long. -/
def IsDocumentAt (path : Text) (t : FileTree) (place : List Text) : Prop :=
  ∃ names name content, place = names ++ [name] ∧ isDocumentName name = true ∧
    (joinAll path names).octetCount < pathLimit ∧ entryAt? place t = some (some content)

theorem IsDocumentAt.ne_nil {place : List Text} (h : IsDocumentAt path t place) : place ≠ [] := by
  obtain ⟨names, name, content, rfl, -⟩ := h
  simp

theorem not_isDocumentAt_file (path : Text) (content : ByteArray) (place : List Text) :
    ¬IsDocumentAt path (.file content) place := by
  intro h
  have hne := h.ne_nil
  obtain ⟨names, name, found, -, -, -, hfile⟩ := h
  obtain ⟨n, rest, rfl⟩ := List.exists_cons_of_ne_nil hne
  rw [entryAt?_cons, child?_file] at hfile
  cases hfile

theorem IsDocumentAt.octetCount_lt {place : List Text} (h : IsDocumentAt path t place) :
    path.octetCount < pathLimit := by
  obtain ⟨names, name, content, -, -, hlen, -⟩ := h
  exact Nat.lt_of_le_of_lt (octetCount_le_joinAll path names) hlen

/-- The documents below a directory are those in it and those below the directories in it. -/
theorem isDocumentAt_directory_iff (hshort : path.octetCount < pathLimit)
    (hdistinct : (es.map (·.1)).Nodup) {place : List Text} :
    IsDocumentAt path (.directory es) place ↔ (∃ name ∈ documentNames es, place = [name]) ∨
      ∃ e ∈ directoriesOf es, ∃ rest, place = e.1 :: rest ∧
        IsDocumentAt (join path e.1) e.2 rest := by
  constructor
  · rintro ⟨names, name, content, rfl, hname, hlen, hfile⟩
    cases names with
    | nil =>
      rw [List.nil_append, entryAt?_cons] at hfile
      obtain ⟨u, hu, hfile⟩ := Option.bind_eq_some_iff.1 hfile
      rw [entryAt?_nil, Option.some_inj] at hfile
      cases u with
      | directory fs => cases hfile
      | file found =>
        have hmem := (child?_eq_some_iff hdistinct).1 hu
        exact .inl ⟨name, mem_documentNames.2 ⟨hname, found, hmem⟩, rfl⟩
    | cons n names =>
      rw [List.cons_append, entryAt?_cons] at hfile
      obtain ⟨u, hu, hfile⟩ := Option.bind_eq_some_iff.1 hfile
      have hmem := (child?_eq_some_iff hdistinct).1 hu
      have hinner : IsDocumentAt (join path n) u (names ++ [name]) :=
        ⟨names, name, content, rfl, hname, hlen, hfile⟩
      cases u with
      | file found => exact absurd hinner (not_isDocumentAt_file _ _ _)
      | directory fs =>
        exact .inr ⟨(n, .directory fs), List.mem_filter.2 ⟨hmem, rfl⟩, _, rfl, hinner⟩
  · rintro (⟨name, hname, rfl⟩ | ⟨⟨n, u⟩, he, rest, rfl, hrest⟩)
    · obtain ⟨hdocument, content, hmem⟩ := mem_documentNames.1 hname
      refine ⟨[], name, content, rfl, hdocument, hshort, ?_⟩
      rw [entryAt?_cons, (child?_eq_some_iff hdistinct).2 hmem, Option.bind_some, entryAt?_nil]
      rfl
    · obtain ⟨names, name, content, rfl, hname, hlen, hfile⟩ := hrest
      refine ⟨n :: names, name, content, rfl, hname, hlen, ?_⟩
      have hmem := (child?_eq_some_iff hdistinct).2 (List.mem_of_mem_filter he)
      rw [entryAt?_cons, hmem, Option.bind_some, hfile]

/-- These are the places that are visited: the documents below the path, each once and in
order. -/
structure Visits (path : Text) (t : FileTree) (places : List (List Text)) : Prop where
  paths : documentPaths path t = places.map (joinAll path)
  mem_iff : ∀ place, place ∈ places ↔ IsDocumentAt path t place
  ordered : places.Pairwise Precedes

/-- The documents of a directory are visited before those further down. -/
theorem visits_directory (hshort : path.octetCount < pathLimit)
    (hdistinct : (es.map (·.1)).Nodup) (inner : List (List Text))
    (hpaths : ((directoriesOf es).flatMap fun e => documentPaths (join path e.1) e.2) =
      inner.map (joinAll path))
    (hmem : ∀ place, place ∈ inner ↔ ∃ e ∈ directoriesOf es, ∃ rest, place = e.1 :: rest ∧
      IsDocumentAt (join path e.1) e.2 rest)
    (hordered : inner.Pairwise Precedes) :
    Visits path (.directory es) ((documentNames es).map (fun name => [name]) ++ inner) := by
  refine ⟨?_, fun place => ?_, List.pairwise_append.2 ⟨?_, hordered, ?_⟩⟩
  · rw [documentPaths_directory, if_pos hshort, hpaths, List.map_append, List.map_map]
    rfl
  · rw [List.mem_append, hmem, isDocumentAt_directory_iff hshort hdistinct, List.mem_map]
    simp only [eq_comm]
  · refine List.pairwise_map.2 ((pairwise_documentNames hdistinct).imp fun {a b} hab => ?_)
    exact ⟨[], a, b, [], rfl, rfl, fun _ => hab⟩
  · intro p hp q hq
    obtain ⟨a, -, rfl⟩ := List.mem_map.1 hp
    obtain ⟨e, -, rest, rfl, hrest⟩ := (hmem q).1 hq
    exact ⟨[], a, e.1, rest, rfl, rfl, fun h => absurd h hrest.ne_nil⟩

/-- **Every document below a path is visited once, and in order.** -/
theorem exists_visits (h : t.IsChain) (path : Text) : ∃ places, Visits path t places := by
  induction h generalizing path with
  | file content =>
    refine ⟨[], documentPaths_file path content, fun place => ?_, .nil⟩
    exact iff_of_false List.not_mem_nil (not_isDocumentAt_file path content place)
  | @directory es named distinct single inner ih =>
    by_cases hshort : path.octetCount < pathLimit
    · cases hdirs : directoriesOf es with
      | nil =>
        refine ⟨_, visits_directory hshort distinct [] ?_ (fun place => ?_) .nil⟩
        · rw [hdirs]
          rfl
        · rw [hdirs]
          simp
      | cons e more =>
        obtain rfl : more = [] := by simpa [hdirs] using single
        have he : e ∈ es := List.mem_of_mem_filter (by rw [← directoriesOf, hdirs]; simp)
        obtain ⟨places, hvisits⟩ := ih e he (join path e.1)
        refine ⟨_, visits_directory hshort distinct (places.map (e.1 :: ·)) ?_
          (fun place => ?_) (List.pairwise_map.2 (hvisits.ordered.imp fun h => h.cons e.1))⟩
        · rw [hdirs, List.flatMap_singleton, hvisits.paths, List.map_map]
          rfl
        · rw [hdirs, List.mem_map]
          simp only [List.mem_singleton, exists_eq_left, hvisits.mem_iff]
          exact exists_congr fun rest => by rw [and_comm, eq_comm]
    · refine ⟨[], ?_, fun place => ?_, .nil⟩
      · rw [documentPaths_directory, if_neg hshort]
        rfl
      · exact iff_of_false List.not_mem_nil fun hdocument => hshort hdocument.octetCount_lt

/-- Only one row of places can be visited. -/
theorem Visits.eq_of_sameEntries {u : FileTree} {places places' : List (List Text)}
    (h : Visits path t places) (h' : Visits path u places') (hsame : SameEntries t u) :
    places = places' := by
  refine eq_of_pairwise_precedes h.ordered h'.ordered fun place => ?_
  rw [h.mem_iff, h'.mem_iff, IsDocumentAt, IsDocumentAt]
  simp only [hsame place]

/-! ### Reading one file after the other -/

/-- What a computation gives; a failed one gives nothing. -/
def given {α : Type} (x : Noted (List α)) : List α :=
  match x.outcome with
  | .ok as => as
  | .error _ => []

/-- What reading files one after the other comes to: everything that they give and every notice,
in order, or the first failure, with the notices up to it. -/
inductive Concatenates {α : Type} (read : Text → Noted (List α)) :
    List Text → Noted (List α) → Prop where
  /-- All files are read. -/
  | returned {files : List Text} (h : ∀ file ∈ files, ∃ as, (read file).outcome = .ok as) :
    Concatenates read files ⟨files.flatMap fun file => (read file).notices,
      .ok (files.flatMap fun file => given (read file))⟩
  /-- One file fails, and those before it are read. -/
  | failed (before : List Text) {after : List Text} {file : Text} {failure : Failure}
    (h : ∀ file ∈ before, ∃ as, (read file).outcome = .ok as)
    (hfile : (read file).outcome = .error failure) :
    Concatenates read (before ++ file :: after)
      ⟨(before.flatMap fun file => (read file).notices) ++ (read file).notices, .error failure⟩

theorem Concatenates.cons {α : Type} {read : Text → Noted (List α)} {files : List Text}
    {x : Noted (List α)} (h : Concatenates read files x) (file : Text) :
    Concatenates read (file :: files) (Noted.append (read file) x) := by
  cases hfile : (read file).outcome with
  | error failure =>
    rw [Noted.append_of_error x hfile]
    exact .failed [] (List.forall_mem_nil _) hfile
  | ok as =>
    rw [Noted.append_of_ok x hfile]
    cases h with
    | returned h =>
      have hgiven : as = given (read file) := by rw [given, hfile]
      rw [hgiven]
      exact .returned (List.forall_mem_cons.2 ⟨⟨as, hfile⟩, h⟩)
    | failed before h hnext =>
      have hall := List.forall_mem_cons.2 ⟨⟨as, hfile⟩, h⟩
      rw [← List.append_assoc]
      exact .failed (file :: before) hall hnext

theorem concatenates_parseFiles (fs : FileSystem) (skip : Bool) (c : Console)
    (files : List Text) :
    Concatenates (fun file => (parseFile fs skip file).printedOn c) files
      ((parseFiles fs skip files).printedOn c) := by
  induction files with
  | nil => exact .returned (List.forall_mem_nil _)
  | cons file files ih =>
    rw [parseFiles_cons, Noted.printedOn_append]
    exact ih.cons file

section ReadFile

variable {fs : FileSystem} {root : FileTree} {skip : Bool} {file : Text}

theorem parseFile_of_unreadable {why : Obstacle}
    (h : readFile fs file = .error (.unreadable why)) :
    parseFile fs skip file = ⟨[.unreadable file why], .ok []⟩ := by
  rw [parseFile, h]
  rfl

/-- A file that cannot be read gives its one notice, if the console shows that. -/
theorem printedOn_parseFile_of_unreadable {why : Obstacle}
    (h : readFile fs file = .error (.unreadable why)) (c : Console) :
    (parseFile fs skip file).printedOn c =
      if c.shows (.unreadable file why) then ⟨[.unreadable file why], .ok []⟩
      else ⟨[], .error (.defect .unfitMarks)⟩ := by
  rw [parseFile_of_unreadable h]
  cases hshows : c.shows (.unreadable file why) with
  | true => exact Noted.printedOn_of_shown c (by simp [hshows])
  | false =>
    rw [Noted.printedOn_of_refused c (by simp [hshows])]
    simp [hshows, abort]

theorem parseFile_of_defect {what : Defect} (h : readFile fs file = .error (.defect what)) :
    parseFile fs skip file = ⟨[], .error (.defect what)⟩ := by
  rw [parseFile, h]
  rfl

theorem parseFile_congr (h : SameEntries root fs.root) (skip : Bool) (file : Text) :
    parseFile { fs with root := root } skip file = parseFile fs skip file := by
  rw [parseFile, parseFile, readFile, readFile, FileSystem.read?_withRoot h]

theorem parseFiles_congr (h : SameEntries root fs.root) (skip : Bool) (files : List Text) :
    parseFiles { fs with root := root } skip files = parseFiles fs skip files := by
  induction files with
  | nil => rfl
  | cons file files ih => rw [parseFiles_cons, parseFiles_cons, parseFile_congr h, ih]

end ReadFile

/-! ### Directories -/

section Directory

variable {fs : FileSystem}

theorem parsePath_of_directory (h : fs.find? path = some (.directory es)) (skip : Bool) :
    parsePath fs skip path = parseFiles fs skip (documentPaths path (.directory es)) := by
  rw [parsePath, h]

/-- A document that is visited is read, unless its own path is too long or reading it is
forbidden. -/
theorem readFile_of_isDocumentAt {base : List Text} (hbase : fs.placeOf? path = some base)
    (ht : subtree? base fs.root = some (.directory es)) (hchain : IsChain (.directory es))
    {place : List Text} (h : IsDocumentAt path (.directory es) place) :
    ∃ content, subtree? place (.directory es) = some (.file content) ∧
      readFile fs (joinAll path place) =
        if (joinAll path place).octetCount < pathLimit ∧ fs.readable (base ++ place) = true then
          readDocuments (joinAll path place) content
        else .error (.unreadable .unopened) := by
  obtain ⟨-, -, content, -, -, -, hfile⟩ := h
  obtain ⟨t, hsub, hcontent⟩ := Option.map_eq_some_iff.1 hfile
  cases t with
  | directory entries => cases hcontent
  | file found =>
    refine ⟨found, hsub, ?_⟩
    by_cases hlen : (joinAll path place).octetCount < pathLimit
    · rw [readFile, FileSystem.read?_joinAll hbase ht hsub (hchain.isEntryName hsub) hlen]
      cases fs.readable (base ++ place) <;> simp [hlen]
    · rw [readFile, FileSystem.read?_of_pathLimit_le (Nat.le_of_not_lt hlen)]
      simp [hlen]

/-- **Reading a directory is reading its documents one after the other.**  Let every directory
below have entries with names of their own and at most one directory among them.  Then exactly
the documents below are visited, each once and in order, and on any console the result is what
they give there, or the failure of the first that fails.  A file without readable documents
gives nothing but its one notice, unless the console refuses that, or what is wrong with the
file is a defect; then the reading ends with that defect, whether or not machine types may be
skipped.  In which order the directories list their entries makes no difference. -/
theorem parsePath_directory (hfind : fs.find? path = some (.directory es))
    (hchain : IsChain (.directory es)) (skip : Bool) (c : Console) :
    ∃ base places, fs.placeOf? path = some base ∧ Visits path (.directory es) places ∧
      places.Nodup ∧
      Concatenates (fun file => (parseFile fs skip file).printedOn c)
        (places.map (joinAll path)) ((parsePath fs skip path).printedOn c) ∧
      (∀ place ∈ places, ∃ content, subtree? place (.directory es) = some (.file content) ∧
        readFile fs (joinAll path place) =
          if (joinAll path place).octetCount < pathLimit ∧ fs.readable (base ++ place) = true then
            readDocuments (joinAll path place) content
          else .error (.unreadable .unopened)) ∧
      (∀ file, (∀ why, readFile fs file = .error (.unreadable why) →
          (parseFile fs skip file).printedOn c =
            if c.shows (.unreadable file why) then ⟨[.unreadable file why], .ok []⟩
            else ⟨[], .error (.defect .unfitMarks)⟩) ∧
        ∀ what, readFile fs file = .error (.defect what) →
          (parseFile fs skip file).printedOn c = ⟨[], .error (.defect what)⟩) ∧
      ∀ root es', FileSystem.find? { fs with root := root } path = some (.directory es') →
        IsChain (.directory es') → SameEntries root fs.root →
        parsePath { fs with root := root } skip path = parsePath fs skip path := by
  obtain ⟨base, hbase, ht⟩ := Option.bind_eq_some_iff.1 hfind
  obtain ⟨places, hvisits⟩ := exists_visits hchain path
  refine ⟨base, places, hbase, hvisits, nodup_of_pairwise_precedes hvisits.ordered, ?_,
    fun place hplace => ?_, fun file => ⟨fun why h => ?_, fun what h => ?_⟩, ?_⟩
  · rw [parsePath_of_directory hfind, hvisits.paths]
    exact concatenates_parseFiles fs skip c _
  · exact readFile_of_isDocumentAt hbase ht hchain ((hvisits.mem_iff place).1 hplace)
  · exact printedOn_parseFile_of_unreadable h c
  · rw [parseFile_of_defect h]
    exact Noted.printedOn_of_shown c rfl
  · intro root es' hfind' hchain' hsame
    obtain ⟨places', hvisits'⟩ := exists_visits hchain' path
    have hentries := FileSystem.sameEntries_of_find? hsame hfind' hfind
    rw [parsePath_of_directory hfind, parsePath_of_directory hfind', hvisits.paths,
      hvisits'.paths, hvisits'.eq_of_sameEntries hvisits hentries, parseFiles_congr hsame]

end Directory

theorem documentNames_of_sorted
    (h : ((filesOf es).map (·.1)).Pairwise fun a b => nameLe a b = true) :
    documentNames es = ((filesOf es).map (·.1)).filter isDocumentName := by
  rw [documentNames, List.mergeSort_of_pairwise h]

/-- A document that is no YAML, one with a machine type, a file that is no document, and an
empty document further down. -/
def fourFiles : List (Text × FileTree) := [
  ("a.yaml", .file "[unclosed\n".toUTF8),
  ("b.json", .file "\x7b\"selfLink\": \"projects/p/zones/z/machineTypes/m\"\x7d".toUTF8),
  ("notes.txt", .file "b.json\n".toUTF8),
  ("sub", .directory [("C.YML", .file .empty)])]

theorem isChain_fourFiles : IsChain (.directory fourFiles) := by
  refine .directory (by decide +kernel) (by decide +kernel) (by decide +kernel) ?_
  simp only [fourFiles, List.forall_mem_cons]
  refine ⟨.file _, .file _, .file _, .directory ?_ ?_ ?_ ?_, List.forall_mem_nil _⟩
  · decide +kernel
  · decide +kernel
  · decide +kernel
  · exact List.forall_mem_cons.2 ⟨.file _, List.forall_mem_nil _⟩

/-- The files of a directory `data`, and a process beside it. -/
def beside (es : List (Text × FileTree)) : FileSystem where
  root := .directory [("data", .directory es), ("home", .directory [])]
  place := ["home"]

/-- The three documents are read in their order, also when the entries are listed the other way
round. -/
theorem parsePath_directory_fourFiles :
    Concatenates (fun file => (parseFile (beside fourFiles) false file).printedOn .atUnclosedList)
        ["../data/a.yaml", "../data/b.json", "../data/sub/C.YML"]
        ((parsePath (beside fourFiles) false "../data").printedOn .atUnclosedList) ∧
      parsePath (beside fourFiles.reverse) false "../data" =
        parsePath (beside fourFiles) false "../data" := by
  have hfind : (beside fourFiles).find? "../data" = some (.directory fourFiles) := rfl
  have hfind' : (beside fourFiles.reverse).find? "../data" =
      some (.directory fourFiles.reverse) := rfl
  have hpaths : documentPaths "../data" (.directory fourFiles) =
      (["../data/a.yaml", "../data/b.json", "../data/sub/C.YML"] : List Text) := by
    have hnames : documentNames fourFiles = (["a.yaml", "b.json"] : List Text) := by
      rw [documentNames_of_sorted (by decide +kernel)]
      decide +kernel
    have hsub : documentPaths (join "../data" "sub") (.directory [("C.YML", .file .empty)]) =
        (["../data/sub/C.YML"] : List Text) := by
      rw [documentPaths_directory, documentNames_of_sorted (by decide +kernel)]
      decide +kernel
    have hdirs : directoriesOf fourFiles =
      ([("sub", .directory [("C.YML", .file .empty)])] : List (Text × FileTree)) := rfl
    rw [documentPaths_directory, hnames, hdirs, List.flatMap_singleton, hsub]
    decide +kernel
  have hperm : fourFiles.Perm fourFiles.reverse := (List.reverse_perm fourFiles).symm
  have hsame : SameEntries (beside fourFiles.reverse).root (beside fourFiles).root :=
    sameEntries_cons (sameEntries_of_perm hperm.symm (by decide +kernel)) _ _
  obtain ⟨base, places, -, hvisits, -, hconcat, -, -, hrelisted⟩ :=
    parsePath_directory hfind isChain_fourFiles false .atUnclosedList
  rw [← hvisits.paths, hpaths] at hconcat
  exact ⟨hconcat, hrelisted _ _ hfind' (isChain_of_perm hperm isChain_fourFiles) hsame⟩

/-- A truth value that is none. -/
def spoiltYaml : String := "!!bool maybe\n"

/-- A document with the given text, and one with a machine type. -/
def beforeMachineType (first : String) : List (Text × FileTree) := [
  ("a.yaml", .file first.toUTF8),
  ("b.json", .file "\x7b\"selfLink\": \"projects/p/zones/z/machineTypes/m\"\x7d".toUTF8)]

/-- The files in a directory `d` of the working directory. -/
def inDirectory (es : List (Text × FileTree)) : FileSystem where
  root := .directory [("d", .directory es)]

theorem documentPaths_beforeMachineType (first : String) :
    documentPaths "d" (.directory (beforeMachineType first)) =
      (["d/a.yaml", "d/b.json"] : List Text) := by
  have hfiles : (filesOf (beforeMachineType first)).map (·.1) =
      (["a.yaml", "b.json"] : List Text) := rfl
  have hdirs : directoriesOf (beforeMachineType first) = [] := rfl
  rw [documentPaths_directory, documentNames_of_sorted (by rw [hfiles]; decide +kernel), hfiles,
    hdirs, List.flatMap_nil]
  decide +kernel

/-- A file that is no stream of documents is read with that problem. -/
theorem readFile_of_problem {fs : FileSystem} {file : Text} {content : ByteArray} {p : Yaml.Problem}
    (hfile : fs.read? file = some content) (hyaml : isJsonPath file = false)
    (h : Yaml.readAll (.ofFile content) = .error p) :
    readFile fs file = .error (.ofYaml content p) := by
  have hread : readYaml content = .error (.ofYaml content p) := by rw [readYaml, h]; rfl
  simp only [readFile, hfile, readDocuments, hyaml, Bool.false_eq_true, if_false, hread, error_bind]

theorem parsePath_beforeMachineType (first : String) (skip : Bool) :
    parsePath (inDirectory (beforeMachineType first)) skip "d" =
      Noted.append (parseFile (inDirectory (beforeMachineType first)) skip "d/a.yaml")
        (parseFiles (inDirectory (beforeMachineType first)) skip ["d/b.json"]) := by
  have hfind : (inDirectory (beforeMachineType first)).find? "d" =
      some (.directory (beforeMachineType first)) := rfl
  rw [parsePath_of_directory hfind, documentPaths_beforeMachineType, parseFiles_cons]

/-- **One scalar that does not fit its tag keeps a whole directory from being read**, even when
machine types may be skipped: nothing is told of the document that cannot be read, and the
machine type of the other one is not given. -/
theorem parsePath_spoilt :
    IsChain (.directory (beforeMachineType spoiltYaml)) ∧
      documentPaths "d" (.directory (beforeMachineType spoiltYaml)) =
        (["d/a.yaml", "d/b.json"] : List Text) ∧
      readFile (inDirectory (beforeMachineType spoiltYaml)) "d/a.yaml" =
        .error (.defect (.unfitScalar .unknownTruth)) ∧
      (given (parseFile (inDirectory (beforeMachineType spoiltYaml)) true "d/b.json")).map
        (·.machineTypeId.machineType) = (["m"] : List Text) ∧
      ∀ c, (parsePath (inDirectory (beforeMachineType spoiltYaml)) true "d").printedOn c =
        ⟨[], .error (.defect (.unfitScalar .unknownTruth))⟩ := by
  have hyaml : isJsonPath "d/a.yaml" = false := by decide +kernel
  have hproblem : Yaml.readAll (.ofFile spoiltYaml.toUTF8) = .error .unknownTruth :=
    eq_error_of_problem? (by decide +kernel)
  have hread : readFile (inDirectory (beforeMachineType spoiltYaml)) "d/a.yaml" =
      .error (.defect (.unfitScalar .unknownTruth)) :=
    readFile_of_problem rfl hyaml hproblem
  have hchain : IsChain (.directory (beforeMachineType spoiltYaml)) := by
    refine .directory (by decide +kernel) (by decide +kernel) (by decide +kernel) ?_
    simp only [beforeMachineType, List.forall_mem_cons]
    exact ⟨.file _, .file _, List.forall_mem_nil _⟩
  refine ⟨hchain, documentPaths_beforeMachineType _, hread, by decide +kernel, fun c => ?_⟩
  rw [parsePath_beforeMachineType, parseFile_of_defect hread]
  exact Noted.printedOn_of_shown c rfl

/-- A scalar with an unknown tag that has brackets in its name. -/
def markedYaml : String := "!<[/x]> a\n"

/-- A terminal and the words of a YAML reader for that tag. -/
def unknownTagTerminal : Console := .terminal fun file _ =>
  "could not determine a constructor for the tag '[/x]'\n  in \"" ++ file ++
    "\", line 1, column 1"

/-- **So does a notice whose marks do not fit together**: the name of the tag closes a style that
is not open. -/
theorem parsePath_marked :
    readFile (inDirectory (beforeMachineType markedYaml)) "d/a.yaml" =
        .error (.unreadable (.notYaml markedYaml.toUTF8)) ∧
      (parsePath (inDirectory (beforeMachineType markedYaml)) true "d").printedOn
        unknownTagTerminal = ⟨[], .error (.defect .unfitMarks)⟩ := by
  have hyaml : isJsonPath "d/a.yaml" = false := by decide +kernel
  have hproblem : Yaml.readAll (.ofFile markedYaml.toUTF8) = .error .malformed :=
    eq_error_of_problem? (by decide +kernel)
  have hread : readFile (inDirectory (beforeMachineType markedYaml)) "d/a.yaml" =
      .error (.unreadable (.notYaml markedYaml.toUTF8)) :=
    readFile_of_problem rfl hyaml hproblem
  have hshows : unknownTagTerminal.shows
      (.unreadable "d/a.yaml" (.notYaml markedYaml.toUTF8)) = false := by decide +kernel
  refine ⟨hread, ?_⟩
  rw [parsePath_beforeMachineType, Noted.printedOn_append, printedOn_parseFile_of_unreadable hread,
    hshows]
  rfl

end Loading
end MachineCatalog
