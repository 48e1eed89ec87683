/-
# What can be wrong with a YAML stream

A stream that breaks the rules of YAML is malformed.  A scalar whose tag
promises a value that its text does not write is a problem of its own kind, and
readers of streams differ in which of these they handle.
-/

namespace MachineCatalog
namespace Yaml

/-- Why a stream has no value. -/
inductive Problem where
  /-- The stream, its structure or its tags break the rules of YAML. -/
  | malformed
  /-- The octets behind the text are not UTF-8. -/
  | undecodable
  /-- A number, a date or a character code that does not exist. -/
  | badScalar
  /-- A character code of more than 31 bits, or a number that no float reaches. -/
  | outOfRange
  /-- A number without a character. -/
  | emptyNumber
  /-- A truth value with an unknown name. -/
  | unknownTruth
  /-- A text tagged as a timestamp that is none. -/
  | notTimestamp
  /-- A mapping with a default entry, tagged as a timestamp. -/
  | mappedTimestamp
  /-- Nodes nested deeper than can be read. -/
  | tooDeep
deriving DecidableEq

end Yaml
end MachineCatalog
