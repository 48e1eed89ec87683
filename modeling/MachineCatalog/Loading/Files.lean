/-
# Machine types in files

A file whose path has the extension `.json` holds one JSON document, any other
file a stream of YAML documents, of which those that are `null` are left out.  A
file that cannot be read holds nothing, and a notice says so.  Of a directory,
the files whose names end in `.json`, `.yaml` or `.yml` are read, those of one
directory in the order of their names.  Case does not matter in either test.
-/

import MachineCatalog.FileSystem
import MachineCatalog.Json.Reader
import MachineCatalog.Loading.Documents
import MachineCatalog.Text.Lines
import MachineCatalog.Yaml.Stream

namespace MachineCatalog
namespace Loading

/-- The endings of file names that are read in a directory. -/
def documentEndings : List Text := [".json", ".yaml", ".yml"]

/-- Whether a file of this name is read in a directory. -/
def isDocumentName (name : Text) : Bool :=
  let small := Text.lowercase name
  documentEndings.any fun ending => small.endsWith ending

/-- The extension of a file name: what stands from its last dot on, when something
other than dots stands before it. -/
def extension (name : Text) : Text :=
  let isInner (c : CodePoint) : Bool := c ≠ '.'
  let tail := (name.reverse.takeWhile isInner).reverse
  let before := name.take (name.length - tail.length - 1)
  if name.contains '.' && before.any isInner then "." ++ tail else []

/-- Whether the file at a path is read as JSON. -/
def isJsonPath (path : Text) : Bool :=
  extension ((Identity.segments (Text.lowercase path)).getLastD []) = ".json"

/-- Why a file has no documents. -/
inductive ReadError where
  /-- The file cannot be opened, is not UTF-8, or breaks the rules of its format. -/
  | unreadable (why : Obstacle)
  /-- No reader handles what is wrong with the file. -/
  | defect (what : Defect)

/-- The error of a problem with a JSON document of the given content. -/
def ReadError.ofJson (content : ByteArray) : Json.Problem → ReadError
  | .malformed => .unreadable (.notJson content)
  | .tooDeep => .defect .tooDeep

/-- The error of a problem with a YAML stream of the given content. -/
def ReadError.ofYaml (content : ByteArray) : Yaml.Problem → ReadError
  | .malformed | .undecodable | .badScalar => .unreadable (.notYaml content)
  | .tooDeep => .defect .tooDeep
  | p => .defect (.unfitScalar p)

/-- The document of a JSON file. -/
def readJson (content : ByteArray) : Except ReadError Value :=
  match Text.ofFile? content with
  | none => .error (.unreadable (.notJson content))
  | some cs => (Json.read cs).mapError (.ofJson content)

/-- The documents of a YAML file. -/
def readYaml (content : ByteArray) : Except ReadError (List Value) :=
  (Yaml.readAll (.ofFile content)).mapError (.ofYaml content)

/-- The documents of a file. -/
def readDocuments (path : Text) (content : ByteArray) : Except ReadError (List Value) :=
  if isJsonPath path then do
    let v ← readJson content
    return [v]
  else do
    let vs ← readYaml content
    return vs.filter fun v => !v.isNull

/-- The documents of the file at a path. -/
def readFile (fs : FileSystem) (path : Text) : Except ReadError (List Value) :=
  match fs.read? path with
  | some content => readDocuments path content
  | none => .error (.unreadable .unopened)

/-- The machine types of the file at a path. -/
def parseFile (fs : FileSystem) (skipInvalid : Bool) (path : Text) : Noted (List MachineType) :=
  match readFile fs path with
  | .ok docs => loadDocuments skipInvalid path docs
  | .error (.unreadable why) => do
    Noted.tell (.unreadable path why)
    return []
  | .error (.defect what) => Noted.lift (abort what)

/-- The machine types of files in order. -/
def parseFiles (fs : FileSystem) (skipInvalid : Bool) : List Text → Noted (List MachineType)
  | [] => pure []
  | path :: paths => do
    let ms ← parseFile fs skipInvalid path
    let more ← parseFiles fs skipInvalid paths
    return ms ++ more

/-- The order of names: by code point. -/
def nameLe (a b : Text) : Bool := !(b < a)

/-- The paths of the documents in a directory and in all directories below. -/
def documentPaths (path : Text) (t : FileTree) : List Text :=
  (t.walk path).flatMap fun d =>
    (((d.2.map (·.1)).mergeSort nameLe).filter isDocumentName).map (FileTree.join d.1)

/-- The machine types of the file or directory at a path. -/
def parsePath (fs : FileSystem) (skipInvalid : Bool) (path : Text) : Noted (List MachineType) :=
  match fs.find? path with
  | some (.file _) => parseFile fs skipInvalid path
  | some t => parseFiles fs skipInvalid (documentPaths path t)
  | none => Noted.lift do
    FileTree.requirePath path
    return []

end Loading
end MachineCatalog
