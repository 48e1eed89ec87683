/-
# Settings

An optional YAML file gives defaults: the project of moves, the format of
reports, and a filter by zone.  Where there is no such file, or no mapping in it,
the settings are the usual ones.
-/

import MachineCatalog.FileSystem
import MachineCatalog.Notice
import MachineCatalog.Text.Lines
import MachineCatalog.Text.Lowercase
import MachineCatalog.Yaml.Stream

namespace MachineCatalog

/-- The formats of reports. -/
inductive ReportFormat where
  | table
  | json
  | markdown
  | html
deriving DecidableEq

namespace ReportFormat

/-- The name of a format. -/
def label : ReportFormat → Text
  | .table => "table"
  | .json => "json"
  | .markdown => "markdown"
  | .html => "html"

/-- All formats. -/
def all : List ReportFormat := [.table, .json, .markdown, .html]

/-- The format with the given name. -/
def ofLabel? (s : Text) : Option ReportFormat := all.find? fun f => f.label = s

end ReportFormat

/-- Defaults for what the command line leaves open. -/
structure Settings where
  project : Value := .null
  format : ReportFormat := .table
  zone : Value := .null

namespace Settings

/-- The name of the settings file in the working directory. -/
def defaultFile : Text := "gcemodel.yaml"

/-- The settings in the fields of a mapping. -/
def ofFields (file : Text) (fields : List (Value × Value)) : Noted Settings := do
  let named := (Value.get? fields "format").getD (.text ReportFormat.table.label)
  if named.holdsLongInteger then Noted.lift (abort .longInteger)
  let name := Text.lowercase named.toText
  let settings : Settings :=
    { project := Value.get fields "project", zone := Value.get fields "zone" }
  match ReportFormat.ofLabel? name with
  | some format => pure { settings with format := format }
  | none => do
    Noted.tell (.unknownFormat name file)
    return settings

/-- The settings in a document. -/
def ofValue (file : Text) (v : Value) : Noted Settings :=
  match v.entries? with
  | some fields => ofFields file fields
  | none =>
    if v.counts then do
      Noted.tell (.settingsNotMapping file)
      return {}
    else ofFields file []

/-- The settings in the content of a file. -/
def ofContent (file : Text) (content : ByteArray) : Noted Settings :=
  match Yaml.readSingle (.ofFile content) with
  | .ok v => ofValue file v
  | .error .malformed => do
    Noted.tell (.unreadable file (.notSettings content))
    return {}
  | .error .undecodable => Noted.lift (abort .undecodable)
  | .error .tooDeep => Noted.lift (abort .tooDeep)
  | .error p => Noted.lift (abort (.unfitScalar p))

/-- The settings in the file at a path, or in the default file. -/
def load (fs : FileSystem) (path : Option Text) : Noted Settings :=
  let given := path.filter fun p => !p.isEmpty
  let file := given.getD defaultFile
  if fs.contains file then
    match fs.read? file with
    | some content => ofContent file content
    | none => do
      Noted.tell (.unreadable file .unopened)
      return {}
  else do
    if given.isSome then Noted.tell (.missingSettings file)
    return {}

end Settings
end MachineCatalog
