/-
# The format of a document

A directory chooses its documents by how their names end, and a document is read as JSON when
its path has the extension `.json`.  The directories of the path have no part in that, nor has
the case of its letters (`isJsonPath_join`), and the extension is what the name ends in unless
nothing but dots stands before it (`extension_eq_iff`).

So the two choices agree but for names like `.json`, which end in `.json` and have no
extension: such a file is a document of its directory, and is read as YAML
(`isReadAs_join_iff`).
-/

import Mathlib.Logic.Basic
import MachineCatalog.Proofs.Loading.Directories
import MachineCatalog.Proofs.Text.Lowercase

namespace MachineCatalog
namespace Loading

open FileTree (join join_cases)
open Identity (segments segments_append)

/-! ### Formats -/

/-- The formats of documents. -/
inductive Format where
  | json
  | yaml

/-- The documents of a file in a format: the one of a JSON text, or those of a YAML stream that
are not `null`. -/
def Format.read (content : ByteArray) : Format → Except ReadError (List Value)
  | .json => (readJson content).map fun v => [v]
  | .yaml => (readYaml content).map fun vs => vs.filter fun v => !v.isNull

/-- The file at a path is read in a format, whatever is in it. -/
def IsReadAs (path : Text) (format : Format) : Prop :=
  ∀ content, readDocuments path content = format.read content

theorem readDocuments_eq (path : Text) (content : ByteArray) :
    readDocuments path content =
      (if isJsonPath path then Format.json else Format.yaml).read content := by
  rw [readDocuments]
  split_ifs
  · cases hread : readJson content <;> simp only [Format.read, hread] <;> rfl
  · cases hread : readYaml content <;> simp only [Format.read, hread] <;> rfl

/-- An empty file is no JSON text, but a YAML stream without documents. -/
theorem read_json_ne_read_yaml : Format.json.read .empty ≠ Format.yaml.read .empty := by
  have hjson : (Format.json.read .empty).toBool = false := by decide +kernel
  have hyaml : (Format.yaml.read .empty).toBool = true := by decide +kernel
  intro h
  rw [h, hyaml] at hjson
  cases hjson

/-- A file is read in one format only. -/
theorem isReadAs_iff {path : Text} {format : Format} :
    IsReadAs path format ↔ (if isJsonPath path then Format.json else Format.yaml) = format := by
  constructor
  · intro h
    have hempty := h .empty
    rw [readDocuments_eq] at hempty
    cases format <;> split_ifs at hempty ⊢
    · rfl
    · exact absurd hempty read_json_ne_read_yaml.symm
    · exact absurd hempty read_json_ne_read_yaml
    · rfl
  · rintro rfl content
    exact readDocuments_eq path content

theorem isReadAs_json_iff {path : Text} : IsReadAs path .json ↔ isJsonPath path = true := by
  rw [isReadAs_iff]
  simp

theorem isReadAs_yaml_iff {path : Text} : IsReadAs path .yaml ↔ ¬isJsonPath path = true := by
  rw [isReadAs_iff]
  simp

/-! ### Extensions -/

theorem extension_of_not_mem {name : Text} (h : CodePoint.ofChar '.' ∉ name) :
    extension name = [] := by
  have hdot : name.contains (CodePoint.ofChar '.') = false := by simpa using h
  simp only [extension, hdot, Bool.false_and, Bool.false_eq_true, if_false]

theorem extension_append {front tail : Text} (h : CodePoint.ofChar '.' ∉ tail) :
    extension (front ++ CodePoint.ofChar '.' :: tail) =
      if front.any fun c => c ≠ CodePoint.ofChar '.' then CodePoint.ofChar '.' :: tail else [] := by
  have htail : ((front ++ CodePoint.ofChar '.' :: tail).reverse.takeWhile fun c =>
      c ≠ CodePoint.ofChar '.') = tail.reverse := by
    have hrev : (front ++ CodePoint.ofChar '.' :: tail).reverse =
        tail.reverse ++ CodePoint.ofChar '.' :: front.reverse := by simp
    rw [hrev, List.takeWhile_append_of_pos (by simpa using fun c hc => ne_of_mem_of_not_mem hc h)]
    simp
  have hbefore : (front ++ CodePoint.ofChar '.' :: tail).take
      ((front ++ CodePoint.ofChar '.' :: tail).length - tail.length - 1) = front := by
    rw [List.length_append, List.length_cons]
    exact List.take_left' (by omega)
  have hdot : (front ++ CodePoint.ofChar '.' :: tail).contains (CodePoint.ofChar '.') = true := by
    simp
  simp only [extension, htail, List.reverse_reverse, hbefore, hdot, Bool.true_and]
  rfl

/-- **A name has an extension when it ends in it behind something other than dots.** -/
theorem extension_eq_iff {name tail : Text} (h : CodePoint.ofChar '.' ∉ tail) :
    extension name = CodePoint.ofChar '.' :: tail ↔
      ∃ front, name = front ++ CodePoint.ofChar '.' :: tail ∧
        ∃ c ∈ front, c ≠ CodePoint.ofChar '.' := by
  constructor
  · intro hext
    by_cases hdot : CodePoint.ofChar '.' ∈ name
    · obtain ⟨after, front, hsplit, hafter⟩ :=
        List.eq_append_cons_of_mem (List.mem_reverse.2 hdot)
      have hname : name = front.reverse ++ CodePoint.ofChar '.' :: after.reverse := by
        rw [← List.reverse_reverse name, hsplit]
        simp
      rw [hname, extension_append (by simpa using hafter)] at hext
      split_ifs at hext with hfront
      refine ⟨front.reverse, by rw [hname, hext], ?_⟩
      simpa using hfront
    · rw [extension_of_not_mem hdot] at hext
      cases hext
  · rintro ⟨front, rfl, hfront⟩
    rw [extension_append h, if_pos (by simpa using hfront)]

/-! ### Paths -/

/-- **The directories of a path have no part in its format.** -/
theorem isJsonPath_join {directory name : Text} (h : CodePoint.ofChar '/' ∉ name) :
    isJsonPath (join directory name) = true ↔ extension (Text.lowercase name) = ".json" := by
  have hname : segments (Text.lowercase name) = [Text.lowercase name] :=
    Text.splitAt_of_not_mem (Text.slash_not_mem_lowercase h)
  have hlast : (segments (Text.lowercase (join directory name))).getLastD [] =
      Text.lowercase name := by
    rcases join_cases directory name with ⟨-, hjoin⟩ | ⟨front, -, hjoin⟩
    · rw [hjoin, hname]
      rfl
    · rw [hjoin, Text.lowercase_append_slash, segments_append, hname, List.getLastD_concat]
  rw [isJsonPath, hlast, decide_eq_true_iff]

/-! ### Names -/

/-- The name ends in this, whatever the case of its letters. -/
def EndsIn (name ending : Text) : Prop := (Text.lowercase name).endsWith ending = true

/-- Nothing but dots stands before what the name ends in. -/
def IsBare (name ending : Text) : Prop :=
  ∃ n, Text.lowercase name = List.replicate n (CodePoint.ofChar '.') ++ ending

theorem endsIn_iff {name ending : Text} :
    EndsIn name ending ↔ ∃ front, Text.lowercase name = front ++ ending := by
  rw [EndsIn, Text.endsWith, List.isSuffixOf_iff_suffix]
  exact exists_congr fun front => eq_comm

theorem isDocumentName_iff {name : Text} :
    isDocumentName name = true ↔
      EndsIn name ".json" ∨ EndsIn name ".yaml" ∨ EndsIn name ".yml" := by
  simp [isDocumentName, documentEndings, EndsIn]

theorem extension_eq_json_iff {name : Text} :
    extension (Text.lowercase name) = ".json" ↔ EndsIn name ".json" ∧ ¬IsBare name ".json" := by
  have hsplit : (".json" : Text) = CodePoint.ofChar '.' :: "json" := rfl
  rw [hsplit, extension_eq_iff (by decide), ← hsplit, endsIn_iff]
  constructor
  · rintro ⟨front, hname, c, hc, hne⟩
    refine ⟨⟨front, hname⟩, fun ⟨n, hbare⟩ => hne ?_⟩
    obtain rfl := List.append_cancel_right (hname.symm.trans hbare)
    exact List.eq_of_mem_replicate hc
  · rintro ⟨⟨front, hname⟩, hbare⟩
    refine ⟨front, hname, Decidable.byContradiction fun hdots => hbare ⟨front.length, ?_⟩⟩
    have hall : ∀ c ∈ front, c = CodePoint.ofChar '.' := by simpa using hdots
    rw [hname, ← List.eq_replicate_of_mem hall]

/-- A name ends in one of these only. -/
theorem not_endsIn_json {name ending : Text} (hending : ending = ".yaml" ∨ ending = ".yml")
    (h : EndsIn name ending) : ¬EndsIn name ".json" := by
  rw [EndsIn, Text.endsWith, List.isSuffixOf_iff_suffix] at h ⊢
  intro hjson
  rcases hending with rfl | rfl <;>
    exact absurd (List.suffix_of_suffix_length_le h hjson (by decide)) (by decide)

/-- The documents that are left when those with the extension `.json` are taken away. -/
theorem not_endsIn_json_or_isBare_iff {name : Text} (h : isDocumentName name = true) :
    ¬(EndsIn name ".json" ∧ ¬IsBare name ".json") ↔
      EndsIn name ".yaml" ∨ EndsIn name ".yml" ∨ IsBare name ".json" := by
  rw [not_and_not_right]
  constructor
  · intro himp
    rcases isDocumentName_iff.1 h with hend | hend | hend
    · exact .inr (.inr (himp hend))
    · exact .inl hend
    · exact .inr (.inl hend)
  · rintro (hend | hend | hbare) hends
    · exact absurd hends (not_endsIn_json (.inl rfl) hend)
    · exact absurd hends (not_endsIn_json (.inr rfl) hend)
    · exact hbare

/-- **What a directory takes a document for is what it is read as**, wherever the directory is,
unless nothing but dots stands before `.json` in the name: such a document is read as YAML. -/
theorem isReadAs_join_iff {directory name : Text} (hname : CodePoint.ofChar '/' ∉ name)
    (hselected : isDocumentName name = true) :
    (IsReadAs (join directory name) .json ↔ EndsIn name ".json" ∧ ¬IsBare name ".json") ∧
      (IsReadAs (join directory name) .yaml ↔
        EndsIn name ".yaml" ∨ EndsIn name ".yml" ∨ IsBare name ".json") := by
  have hjson : isJsonPath (join directory name) = true ↔
      EndsIn name ".json" ∧ ¬IsBare name ".json" :=
    (isJsonPath_join hname).trans extension_eq_json_iff
  constructor
  · exact isReadAs_json_iff.trans hjson
  · rw [isReadAs_yaml_iff, hjson]
    exact not_endsIn_json_or_isBare_iff hselected

/-- A name with a leading dot and a sigma, below a directory with dots in its name. -/
theorem isReadAs_join_iff_hiddenSigma :
    isDocumentName ".ΟΔΟΣ.JSON" = true ∧ IsReadAs (join "old.yaml/..x" ".ΟΔΟΣ.JSON") .json ∧
      ¬IsReadAs (join "old.yaml/..x" ".ΟΔΟΣ.JSON") .yaml := by
  have hselected : isDocumentName ".ΟΔΟΣ.JSON" = true := by decide +kernel
  have hslash : CodePoint.ofChar '/' ∉ (".ΟΔΟΣ.JSON" : Text) := by decide
  obtain ⟨hjson, hyaml⟩ := @isReadAs_join_iff "old.yaml/..x" _ hslash hselected
  have hsmall : Text.lowercase ".ΟΔΟΣ.JSON" = (".οδοσ" ++ ".json" : Text) := by decide +kernel
  have hsigma : CodePoint.ofChar 'σ' ∈ (".οδοσ" : Text) := by decide
  have hbare : ¬IsBare ".ΟΔΟΣ.JSON" ".json" := by
    rintro ⟨n, hn⟩
    rw [List.append_cancel_right (hsmall.symm.trans hn)] at hsigma
    exact absurd (List.eq_of_mem_replicate hsigma) (by decide)
  refine ⟨hselected, hjson.2 ⟨endsIn_iff.2 ⟨_, hsmall⟩, hbare⟩, fun h => ?_⟩
  rcases hyaml.1 h with hend | hend | h
  · exact absurd hend (by unfold EndsIn; decide +kernel)
  · exact absurd hend (by unfold EndsIn; decide +kernel)
  · exact hbare h

/-- A JSON text that is no YAML, having a tab between its parts. -/
def tabbedJson : ByteArray :=
  "\x7b\t\"selfLink\": \"projects/p/zones/z/machineTypes/m\"\x7d".toUTF8

/-- A directory with one file of that text. -/
def tabbedFile (name : Text) : FileSystem := inDirectory [(name, .file tabbedJson)]

theorem parsePath_tabbedFile {name : Text} (h : isDocumentName name = true) :
    parsePath (tabbedFile name) false "d" =
      Noted.append (parseFile (tabbedFile name) false (join "d" name)) (pure []) := by
  have hnames : documentNames [(name, .file tabbedJson)] = [name] := by
    rw [documentNames_of_sorted (by simp [FileTree.filesOf])]
    simp [FileTree.filesOf, h]
  have hpaths : documentPaths "d" (.directory [(name, .file tabbedJson)]) = [join "d" name] := by
    rw [documentPaths_directory, hnames]
    rfl
  have hfind : (tabbedFile name).find? "d" = some (.directory [(name, .file tabbedJson)]) := rfl
  rw [parsePath_of_directory hfind, hpaths, parseFiles_cons]
  rfl

/-- **A document whose whole name is `.json` is not read as JSON**: its machine type is lost,
with a notice that the file cannot be read.  Under another name it is given. -/
theorem parsePath_bareJson :
    isDocumentName ".json" = true ∧ EndsIn ".json" ".json" ∧
      ¬IsReadAs (join "d" ".json") .json ∧
      parsePath (tabbedFile ".json") false "d" =
        ⟨[.unreadable "d/.json" (.notYaml tabbedJson)], .ok []⟩ ∧
      (given (parsePath (tabbedFile "a.json") false "d")).map (·.machineTypeId.machineType) =
        (["m"] : List Text) := by
  have hbare : isDocumentName ".json" = true := by decide +kernel
  have hother : isDocumentName "a.json" = true := by decide +kernel
  have hyaml : isJsonPath (join "d" ".json") = false := by decide +kernel
  have hjoin : join "d" ".json" = ("d/.json" : Text) := by decide
  have hproblem : Yaml.readAll (.ofFile tabbedJson) = .error .malformed :=
    eq_error_of_problem? (by decide +kernel)
  have hread : readFile (tabbedFile ".json") (join "d" ".json") =
      .error (.unreadable (.notYaml tabbedJson)) :=
    readFile_of_problem rfl hyaml hproblem
  refine ⟨hbare, by unfold EndsIn; decide +kernel, ?_, ?_, ?_⟩
  · rw [isReadAs_json_iff, hyaml]
    nofun
  · rw [parsePath_tabbedFile hbare, parseFile_of_unreadable hread, hjoin]
    rfl
  · rw [parsePath_tabbedFile hother]
    decide +kernel

end Loading
end MachineCatalog
