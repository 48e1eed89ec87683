/-
# Quoted text

A text inside a list or a mapping is shown between quotes.  The quote is `'`,
or `"` when the text holds a `'` and no `"`.  A backslash, the quote in use,
line feed, carriage return and tab get a short escape, and every other code
point that is not printable is given in two, four or eight hexadecimal digits.
-/

import MachineCatalog.Text.Numeral
import MachineCatalog.Text.Printable

namespace MachineCatalog
namespace Text

/-- The quote for a text. -/
def quoteFor (cs : Text) : CodePoint :=
  if cs.contains '\'' && !cs.contains '"' then '"' else '\''

/-- One code point between the given quotes. -/
def escaped (quote c : CodePoint) : Text :=
  if c = quote || c = '\\' then ['\\', c]
  else if c = '\n' then ['\\', 'n']
  else if c = '\r' then ['\\', 'r']
  else if c = '\t' then ['\\', 't']
  else if isPrintable c then [c]
  else if c.val < 0x100 then "\\x" ++ hexadecimal 2 c.val
  else if c.val < 0x10000 then "\\u" ++ hexadecimal 4 c.val
  else "\\U" ++ hexadecimal 8 c.val

/-- The text between quotes, with escapes. -/
def quoted (s : Text) : Text :=
  let quote := quoteFor s
  quote :: s.flatMap (escaped quote) ++ [quote]

/-- One octet between the given quotes. -/
def escapedOctet (quote : CodePoint) (b : UInt8) : Text :=
  let c : CodePoint := .ofNat b.toNat
  if c = quote || c = '\\' then ['\\', c]
  else if c = '\n' then ['\\', 'n']
  else if c = '\r' then ['\\', 'r']
  else if c = '\t' then ['\\', 't']
  else if 0x20 ≤ b && b < 0x7F then [c]
  else "\\x" ++ hexadecimal 2 b.toNat

/-- Octets between quotes, with a `b` in front. -/
def quotedOctets (bs : List UInt8) : Text :=
  let quote := quoteFor (bs.map fun b => .ofNat b.toNat)
  "b" ++ [quote] ++ bs.flatMap (escapedOctet quote) ++ [quote]

end Text
end MachineCatalog
