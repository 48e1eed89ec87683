/-
# Tags

A tag says what kind of value a node is.  The tags known here are those of the
common types of YAML; a plain scalar without a tag gets one from its form, and so
does any scalar with the tag `!`.
-/

import MachineCatalog.Text.Basic
import MachineCatalog.Yaml.ScalarForm

namespace MachineCatalog
namespace Yaml

/-- What a node is. -/
inductive Tag where
  | null
  | truth
  | int
  | float
  | octets
  | timestamp
  | orderedPairs
  | pairs
  | set
  | text
  | list
  | mapping
  /-- The key `<<`, whose value is merged into the mapping. -/
  | merge
  /-- The key `=`. -/
  | default
  | unknown
deriving DecidableEq

namespace Tag

/-- Whether the values under a tag are scalars. -/
def isScalar : Tag → Bool
  | .null | .truth | .int | .float | .octets | .timestamp | .text => true
  | .orderedPairs | .pairs | .set | .list | .mapping | .merge | .default | .unknown => false

/-- What the names of common types start with. -/
def commonStart : String := "tag:yaml.org,2002:"

/-- The common types by name. -/
def commonNames : List (String × Tag) := [
  ("null", .null), ("bool", .truth), ("int", .int), ("float", .float), ("binary", .octets),
  ("timestamp", .timestamp), ("omap", .orderedPairs), ("pairs", .pairs), ("set", .set),
  ("str", .text), ("seq", .list), ("map", .mapping), ("merge", .merge), ("value", .default)]

/-- The tag with the given full name. -/
def ofName (name : String) : Tag :=
  match commonNames.find? fun p => commonStart ++ p.1 = name with
  | some p => p.2
  | none => .unknown

/-- The tag of a scalar by the form of its text. -/
def ofForm (text : Text) : Tag :=
  let cs := ScalarForm.formText text.chars
  let body := String.ofList cs
  if ScalarForm.truthTexts.contains body then .truth
  else if ScalarForm.isFloat cs then .float
  else if ScalarForm.isInt cs then .int
  else if body = "<<" then .merge
  else if ScalarForm.nullTexts.contains body then .null
  else if ScalarForm.isTimestamp cs then .timestamp
  else if body = "=" then .default
  else if ScalarForm.indicatorTexts.contains body then .unknown
  else .text

end Tag
end Yaml
end MachineCatalog
