/-
# What is read from files

Whatever the files hold and in whichever mode they are read, the machine types that come
out of them are as the reader of wire forms gives them (`Loading.yields_parsePath`).  Each
was read from a wire form of some document (`Loading.exists_offered_of_mem`), and joining
the results of documents, files and paths adds no others.

A file that a string was written to holds that string again, with its line ends unified
(`Text.ofFile?_toUTF8`).
-/

import MachineCatalog.Loading.Files
import MachineCatalog.Proofs.Loading.Modes
import MachineCatalog.Proofs.WireForm.Rewriting

namespace MachineCatalog

theorem Text.ofFile?_toUTF8 (s : String) :
    Text.ofFile? s.toUTF8 = some (Text.unifyLineEnds s.toList) := by
  have h : String.fromUTF8? s.toUTF8 = some s := by
    simp [String.fromUTF8?, String.fromUTF8, s.isValidUTF8]
  rw [ofFile?, ofFile, h]

namespace Loading

variable (fs : FileSystem) (skip : Bool)

theorem yields_loadDocuments (source : Text) (docs : List Value) :
    (loadDocuments skip source docs).Yields MachineType.IsRead := by
  rintro ms h m hm
  have hok : loadDocuments skip source docs =
      ⟨(loadDocuments skip source docs).notices, .ok ms⟩ := by
    rw [← h]
  obtain ⟨doc, -, p, -, hp⟩ := exists_offered_of_mem hok hm
  exact MachineType.isRead_of_ofWire hp

theorem yields_parseFile (path : Text) :
    (parseFile fs skip path).Yields MachineType.IsRead := by
  unfold parseFile
  split
  · exact yields_loadDocuments skip path _
  · exact Noted.yields_nil _ _
  · exact Noted.yields_error _ _ _

theorem parseFiles_cons (path : Text) (paths : List Text) :
    parseFiles fs skip (path :: paths) =
      Noted.append (parseFile fs skip path) (parseFiles fs skip paths) := rfl

theorem yields_parseFiles (paths : List Text) :
    (parseFiles fs skip paths).Yields MachineType.IsRead := by
  induction paths with
  | nil => exact Noted.yields_nil _ _
  | cons path paths ih =>
    rw [parseFiles_cons]
    exact (yields_parseFile fs skip path).append ih

/-- **What is read from a path is as the reader of wire forms gives it.** -/
theorem yields_parsePath (path : Text) :
    (parsePath fs skip path).Yields MachineType.IsRead := by
  unfold parsePath
  split
  · exact yields_parseFile fs skip path
  · exact yields_parseFiles fs skip _
  · cases FileTree.requirePath path with
    | error e => exact Noted.yields_error _ _ _
    | ok _ => exact Noted.yields_nil _ _

end Loading
end MachineCatalog
