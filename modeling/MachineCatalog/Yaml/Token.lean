/-
# Tokens of YAML streams

The marks, names and scalars of a stream, in order.  Block structure shows in
tokens that open and close blocks.
-/

import MachineCatalog.Text.Basic

namespace MachineCatalog
namespace Yaml

/-- A token. -/
inductive Token where
  | streamEnd
  | versionDirective (major : Nat)
  | tagDirective (handle leading : String)
  | otherDirective
  | documentStart
  | documentEnd
  | blockSequenceStart
  | blockMappingStart
  | blockEnd
  | flowSequenceStart
  | flowSequenceEnd
  | flowMappingStart
  | flowMappingEnd
  | blockEntry
  | flowEntry
  | key
  | value
  | alias (name : String)
  | anchor (name : String)
  /-- A tag: a suffix, and the handle in front of it unless the tag is verbatim. -/
  | tag (handle : Option String) (suffix : String)
  | scalar (text : Text) (plain : Bool)
deriving DecidableEq

end Yaml
end MachineCatalog
