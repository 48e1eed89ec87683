/-
# Text files

Text files are in UTF-8.  They end their lines with a line feed, a carriage
return, or both in this order; reading turns all of them into line feeds.  The
octets are decoded block by block, so that a block which is not UTF-8 leaves the
blocks before it readable.
-/

namespace MachineCatalog
namespace Text

/-- The text with a line feed at the end of every line. -/
def unifyLineEnds : List Char → List Char
  | [] => []
  | '\r' :: '\n' :: rest => '\n' :: unifyLineEnds rest
  | '\r' :: rest => '\n' :: unifyLineEnds rest
  | c :: rest => c :: unifyLineEnds rest

/-- What is known after the first octets of a character. -/
structure Continuation where
  /-- How many octets are missing. -/
  missing : Nat
  /-- The least value of the next one. -/
  least : UInt8
  /-- The greatest value of the next one. -/
  greatest : UInt8

/-- What follows the first octet of a character; none when no character starts so. -/
def Continuation.after? (b : UInt8) : Option Continuation :=
  if b < 0x80 then some ⟨0, 0x80, 0xBF⟩
  else if b < 0xC2 then none
  else if b < 0xE0 then some ⟨1, 0x80, 0xBF⟩
  else if b = 0xE0 then some ⟨2, 0xA0, 0xBF⟩
  else if b = 0xED then some ⟨2, 0x80, 0x9F⟩
  else if b < 0xF0 then some ⟨2, 0x80, 0xBF⟩
  else if b = 0xF0 then some ⟨3, 0x90, 0xBF⟩
  else if b < 0xF4 then some ⟨3, 0x80, 0xBF⟩
  else if b = 0xF4 then some ⟨3, 0x80, 0x8F⟩
  else none

/-- How many octets stand before the first that cannot continue them to UTF-8. -/
def soundLength (octets : List UInt8) : Nat := go ⟨0, 0x80, 0xBF⟩ octets
where
  /-- Counts octets from the middle of a character on. -/
  go (k : Continuation) : List UInt8 → Nat
    | [] => 0
    | b :: rest =>
      if k.missing = 0 then
        match Continuation.after? b with
        | some k => go k rest + 1
        | none => 0
      else if k.least ≤ b && b ≤ k.greatest then go ⟨k.missing - 1, 0x80, 0xBF⟩ rest + 1
      else 0

/-- The number of octets of a block. -/
def blockLength : Nat := 8192

/-- The characters of a text file. -/
inductive FileText where
  /-- All octets are UTF-8. -/
  | complete (cs : List Char)
  /-- A block is not UTF-8, and these characters stand in the blocks before it. -/
  | broken (cs : List Char)

/-- The whole characters in the octets of some blocks.  At most three octets at
their end belong to a character that goes on behind them. -/
def wholeCharacters (content : ByteArray) : List Char :=
  let texts := (List.range 4).filterMap fun k =>
    String.fromUTF8? (content.extract 0 (content.size - k))
  (texts.headD "").toList

/-- The characters that are known without what follows: a carriage return at the end may
belong to a line feed behind it. -/
def settledCharacters (cs : List Char) : List Char :=
  if cs.getLast? = some '\r' then cs.dropLast else cs

/-- The text that a file holds. -/
def ofFile (content : ByteArray) : FileText :=
  match String.fromUTF8? content with
  | some s => .complete (unifyLineEnds s.toList)
  | none =>
    let sound := soundLength content.toList
    let blocks := if sound = content.size then sound else sound / blockLength * blockLength
    let known := settledCharacters (wholeCharacters (content.extract 0 blocks))
    .broken (unifyLineEnds known)

/-- The characters of a text file, if its octets are UTF-8. -/
def ofFile? (content : ByteArray) : Option (List Char) :=
  match ofFile content with
  | .complete cs => some cs
  | .broken _ => none

end Text
end MachineCatalog
