/-
# Sources of YAML streams

A stream is read from a file page by page, and a page must hold characters that
may stand in a stream only.  So of a file with a fault only the pages before the
fault can be read, and reading fails when it goes on behind them.
-/

import MachineCatalog.Text.Lines
import MachineCatalog.Yaml.Problem

namespace MachineCatalog
namespace Yaml

/-- A text that can be read, and what is wrong behind it. -/
structure Source where
  text : List Char
  beyond : Option Problem

/-- A character that may stand in a stream. -/
def isStreamChar (c : Char) : Bool :=
  let n := c.toNat
  n = 0x09 || n = 0x0A || n = 0x0D || (0x20 ≤ n && n ≤ 0x7E) || n = 0x85 ||
    (0xA0 ≤ n && n ≤ 0xFFFD) || 0x10000 ≤ n

namespace Source

/-- The number of characters of a page.  The first page has twice as many. -/
def pageLength : Nat := 4096

/-- How many characters stand in the pages before the page of the character at the
given place. -/
def readable (place : Nat) : Nat :=
  if place < 2 * pageLength then 0 else place / pageLength * pageLength

/-- The pages before the first character that may not stand in a stream. -/
def ofChars (cs : List Char) (beyond : Option Problem) : Source :=
  match cs.findIdx? fun c => !isStreamChar c with
  | none => ⟨cs, beyond⟩
  | some place => ⟨cs.take (readable place), some .malformed⟩

/-- The source that a file holds. -/
def ofFile (content : ByteArray) : Source :=
  match Text.ofFile content with
  | .complete cs => ofChars cs none
  | .broken cs => ofChars (cs.take (readable cs.length)) (some .undecodable)

end Source
end Yaml
end MachineCatalog
