/-
# The tokens ahead

Tokens are read from a text no sooner than they are asked for, so that a problem
counts only when reading gets to it.  Indentation opens and closes blocks: a token
further right than the current block opens one where block entries and keys may
start, and a token further left closes those it leaves.  A scalar, alias or flow
collection may turn out to be a key when `:` follows on its line, at most 1024
characters on; the tokens of the key are then put in front of it.  Where a key is
the only thing that could stand there, the lack of its `:` is a problem.

The token ahead is known only when it can no longer turn out to be a key.
-/

import MachineCatalog.Yaml.PropertyText
import MachineCatalog.Yaml.ScalarText

namespace MachineCatalog
namespace Yaml

/-- A token that may turn out to be a key. -/
structure KeyCandidate where
  /-- How deep in flow collections the token stands. -/
  level : Int
  /-- How many tokens are before it. -/
  number : Nat
  /-- Nothing but a key may stand at its place. -/
  required : Bool
  index : Nat
  line : Nat
  column : Nat

/-- The tokens ahead, and what is known of the text behind them. -/
structure TokenQueue where
  cursor : Cursor
  /-- The tokens that are read and not yet taken, in order. -/
  ahead : List Token
  /-- How many tokens have been taken. -/
  taken : Nat
  /-- Whether the end of the stream is among the tokens. -/
  ended : Bool
  /-- How many flow collections are open. -/
  flowLevel : Int
  /-- The column of the current block, -1 outside of all blocks. -/
  indent : Int
  /-- The columns of the blocks around it, the nearest first. -/
  outer : List Int
  /-- Whether a key may start here. -/
  keyAllowed : Bool
  candidates : List KeyCandidate

namespace TokenQueue

/-- The start of a text. -/
def start (source : Source) : TokenQueue where
  cursor := .start source
  ahead := []
  taken := 0
  ended := false
  flowLevel := 0
  indent := -1
  outer := []
  keyAllowed := true
  candidates := []

/-- Whether a flow collection is open. -/
def inFlow (s : TokenQueue) : Bool := s.flowLevel ≠ 0

/-- How many tokens there are, taken or not. -/
def count (s : TokenQueue) : Nat := s.taken + s.ahead.length

/-- Adds a token. -/
def add (s : TokenQueue) (t : Token) : TokenQueue := { s with ahead := s.ahead ++ [t] }

/-- Adds a token and goes on at the given place. -/
def push (s : TokenQueue) (t : Token) (c : Cursor) : TokenQueue := { s.add t with cursor := c }

/-- Puts a token after the first `number` tokens. -/
def insert (s : TokenQueue) (number : Nat) (t : Token) : TokenQueue :=
  let before := number - s.taken
  { s with ahead := s.ahead.take before ++ t :: s.ahead.drop before }

/-- Passes a byte order mark at the start, blanks, comments and line breaks. -/
def toNextToken (s : TokenQueue) : TokenQueue :=
  let c := s.cursor
  let c := if c.index = 0 && c.here.toNat = 0xFEFF then c.next else c
  go s.inFlow (c.left + 1) { s with cursor := c }
where
  /-- Passes the rest of a line, and the lines after it that hold no token. -/
  go (inFlow : Bool) : Nat → TokenQueue → TokenQueue
    | 0, s => s
    | fuel + 1, s =>
      let c := s.cursor.pass (· = ' ')
      let c := if c.here = '#' then c.pass (!endsLine ·) else c
      if isBreak c.here then
        go inFlow fuel { s with cursor := c.lineBreak.2, keyAllowed := s.keyAllowed || !inFlow }
      else { s with cursor := c }

/-- Drops the candidates that cannot become keys any more. -/
def dropStale (s : TokenQueue) : Except Problem TokenQueue :=
  let isStale (k : KeyCandidate) : Bool :=
    k.line ≠ s.cursor.line || k.index + 1024 < s.cursor.index
  if s.candidates.any fun k => isStale k && k.required then .error s.cursor.problem
  else .ok { s with candidates := s.candidates.filter fun k => !isStale k }

/-- Drops the candidate of the current flow level. -/
def dropCandidate (s : TokenQueue) : Except Problem TokenQueue :=
  if s.candidates.any fun k => k.level = s.flowLevel && k.required then
    .error s.cursor.problem
  else .ok { s with candidates := s.candidates.filter fun k => k.level ≠ s.flowLevel }

/-- Notes that the next token may be a key. -/
def noteCandidate (s : TokenQueue) : Except Problem TokenQueue :=
  if s.keyAllowed then do
    let s ← s.dropCandidate
    let required := !s.inFlow && s.indent = s.cursor.column
    let k : KeyCandidate :=
      ⟨s.flowLevel, s.count, required, s.cursor.index, s.cursor.line, s.cursor.column⟩
    return { s with candidates := k :: s.candidates }
  else .ok s

/-- Closes the blocks to the right of a column. -/
def unwind (column : Int) (s : TokenQueue) : TokenQueue :=
  if s.inFlow then s else go s.outer s
where
  /-- Closes blocks while there are blocks around them. -/
  go : List Int → TokenQueue → TokenQueue
    | [], s => s
    | i :: outer, s =>
      if column < s.indent then
        go outer { s.add .blockEnd with indent := i, outer := outer }
      else s

/-- Opens a block at a column to the right of the current block. -/
def openBlock? (s : TokenQueue) (column : Int) : Option TokenQueue :=
  if s.indent < column then some { s with outer := s.indent :: s.outer, indent := column }
  else none

/-- The end of the text. -/
def streamEnd (s : TokenQueue) : Except Problem TokenQueue := do
  let s ← (s.unwind (-1)).dropCandidate
  return { s.add .streamEnd with keyAllowed := false, candidates := [], ended := true }

/-- A directive. -/
def directive (s : TokenQueue) : Except Problem TokenQueue := do
  let s ← (s.unwind (-1)).dropCandidate
  let (t, c) ← directive? s.cursor
  return { s.push t c with keyAllowed := false }

/-- A mark that opens or closes a document. -/
def documentMark (s : TokenQueue) (t : Token) : Except Problem TokenQueue := do
  let s ← (s.unwind (-1)).dropCandidate
  return { s.push t (s.cursor.skip 3) with keyAllowed := false }

/-- A bracket that opens a flow collection. -/
def flowStart (s : TokenQueue) (t : Token) : Except Problem TokenQueue := do
  let s ← s.noteCandidate
  return { s.push t s.cursor.next with flowLevel := s.flowLevel + 1, keyAllowed := true }

/-- A bracket that closes a flow collection. -/
def flowEnd (s : TokenQueue) (t : Token) : Except Problem TokenQueue := do
  let s ← s.dropCandidate
  return { s.push t s.cursor.next with flowLevel := s.flowLevel - 1, keyAllowed := false }

/-- A comma in a flow collection. -/
def flowEntry (s : TokenQueue) : Except Problem TokenQueue := do
  let s ← s.dropCandidate
  return { s.push .flowEntry s.cursor.next with keyAllowed := true }

/-- Outside of flow collections an indicator must stand where a key may, and opens
a block there if none is open. -/
def blockFor (opening : Token) (s : TokenQueue) : Except Problem TokenQueue :=
  if s.inFlow then .ok s
  else if !s.keyAllowed then .error s.cursor.problem
  else
    match s.openBlock? s.cursor.column with
    | some s => .ok (s.add opening)
    | none => .ok s

/-- The indicator of a block entry. -/
def blockEntry (s : TokenQueue) : Except Problem TokenQueue := do
  let s ← s.blockFor .blockSequenceStart
  let s ← s.dropCandidate
  return { s.push .blockEntry s.cursor.next with keyAllowed := true }

/-- The indicator of a key. -/
def keyMark (s : TokenQueue) : Except Problem TokenQueue := do
  let s ← s.blockFor .blockMappingStart
  let s ← s.dropCandidate
  return { s.push .key s.cursor.next with keyAllowed := !s.inFlow }

/-- The indicator of a value: the candidate of this flow level is a key, or the
key is empty. -/
def valueMark (s : TokenQueue) : Except Problem TokenQueue :=
  match s.candidates.find? fun k => k.level = s.flowLevel with
  | some k =>
    let s := { s with candidates := s.candidates.filter fun k => k.level ≠ s.flowLevel }
    let s := s.insert k.number .key
    let s :=
      if s.inFlow then s
      else
        match s.openBlock? k.column with
        | some s => s.insert k.number .blockMappingStart
        | none => s
    .ok { s.push .value s.cursor.next with keyAllowed := false }
  | none => do
    let s ← s.blockFor .blockMappingStart
    let s ← s.dropCandidate
    return { s.push .value s.cursor.next with keyAllowed := !s.inFlow }

/-- An alias, anchor, tag or quoted scalar, which may start a key. -/
def property (s : TokenQueue) (read : Cursor → Except Problem (Token × Cursor)) :
    Except Problem TokenQueue := do
  let s ← s.noteCandidate
  let (t, c) ← read s.cursor
  return { s.push t c with keyAllowed := false }

/-- A quoted scalar. -/
def quoted (s : TokenQueue) (double : Bool) : Except Problem TokenQueue :=
  s.property fun c => do
    let (text, c) ← Quoted.read double c
    return (.scalar text false, c)

/-- A block scalar. -/
def block (s : TokenQueue) (folded : Bool) : Except Problem TokenQueue := do
  let s ← s.dropCandidate
  let (text, c) ← Block.read folded s.indent s.cursor
  return { s.push (.scalar (Text.ofChars text) false) c with keyAllowed := true }

/-- A plain scalar.  After a line break behind it a key may start, and a document
mark is looked for there; a `:` ends it only when what follows allows that. -/
def plain (s : TokenQueue) : Except Problem TokenQueue := do
  let s ← s.noteCandidate
  let (text, c, broken) := Plain.read s.inFlow (s.indent + 1) s.cursor
  if broken then
    if c.column = 0 then c.lookForMark else c.look (2 - c.column)
  else if c.here = ':' then c.look 1
  return { s.push (.scalar (Text.ofChars text) true) c with keyAllowed := broken }

/-- Whether a plain scalar may start at the place. -/
def startsPlain (s : TokenQueue) : Bool :=
  let x := s.cursor.here
  let marks := "-?:,[]\x7b\x7d#&*!|>'\"%@`".toList
  (!endsWord x && !marks.contains x) ||
    (!endsWord (s.cursor.peek 1) && (x = '-' || (!s.inFlow && (x = '?' || x = ':'))))

/-- The next token, and the tokens that come with it. -/
def token (s : TokenQueue) : Except Problem TokenQueue := do
  let c := s.cursor
  let x := c.here
  let spaced := endsWord (c.peek 1)
  if c.column = 0 && (x = '-' || x = '.') then c.lookForMark
  if x = '-' || (!s.inFlow && (x = '?' || x = ':')) then c.look 1
  if x = '\x00' then s.streamEnd
  else if x = '%' && c.column = 0 then s.directive
  else if x = '-' && c.column = 0 && c.atDocumentMark then s.documentMark .documentStart
  else if x = '.' && c.column = 0 && c.atDocumentMark then s.documentMark .documentEnd
  else if x = '[' then s.flowStart .flowSequenceStart
  else if x = '\x7b' then s.flowStart .flowMappingStart
  else if x = ']' then s.flowEnd .flowSequenceEnd
  else if x = '\x7d' then s.flowEnd .flowMappingEnd
  else if x = ',' then s.flowEntry
  else if x = '-' && spaced then s.blockEntry
  else if x = '?' && (s.inFlow || spaced) then s.keyMark
  else if x = ':' && (s.inFlow || spaced) then s.valueMark
  else if x = '*' then s.property fun c => do
    let (name, c) ← anchorName? c
    return (.alias name, c)
  else if x = '&' then s.property fun c => do
    let (name, c) ← anchorName? c
    return (.anchor name, c)
  else if x = '!' then s.property tag?
  else if x = '|' && !s.inFlow then s.block false
  else if x = '>' && !s.inFlow then s.block true
  else if x = '\'' then s.quoted false
  else if x = '"' then s.quoted true
  else if s.startsPlain then s.plain
  else
    c.look 1
    throw .malformed

/-- One step through the text. -/
def step (s : TokenQueue) : Except Problem TokenQueue := do
  let s := s.toNextToken
  s.cursor.look 0
  let s ← s.dropStale
  let s ← (s.unwind s.cursor.column).token
  s.cursor.look 0
  return s

/-- Whether the token ahead is not known yet. -/
def isOpen (s : TokenQueue) : Bool :=
  s.ahead.isEmpty || (s.candidates.map KeyCandidate.number).min? = some s.taken

/-- Reads on until the token ahead is known.  Every step passes a character, so the
text bounds their number. -/
def settle (s : TokenQueue) : Except Problem TokenQueue := go (s.cursor.left + 2) s
where
  /-- Takes steps while the token ahead is not known. -/
  go : Nat → TokenQueue → Except Problem TokenQueue
    | 0, s => .ok s
    | fuel + 1, s => do
      if s.ended then return s
      let s ← if s.ahead.isEmpty then pure s else s.dropStale
      if s.isOpen then go fuel (← s.step) else return s

/-- Takes the token ahead. -/
def take (s : TokenQueue) : TokenQueue :=
  { s with ahead := s.ahead.drop 1, taken := s.taken + 1 }

end TokenQueue
end Yaml
end MachineCatalog
