/-
# Documents of YAML streams

A document is read from the tokens of a stream as a graph of nodes.  An alias
stands for the node with its anchor, also inside of that node.  Nodes may be
nested down to `nestingLimit`, which is what the stack of calls allows at one
depth of calls.
-/

import MachineCatalog.Yaml.Node
import MachineCatalog.Yaml.TokenQueue

namespace MachineCatalog
namespace Yaml

/-- The nodes of a document, and which of them is the outermost. -/
structure Document where
  graph : Graph
  root : NodeId

/-- How deep nodes may be nested: what the usual limit of the stack of calls leaves to a reader
that is called from the outermost level.  Called from further down, it has less. -/
def nestingLimit : Nat := 488

/-- What is known while the tokens of a document are read. -/
structure Reading where
  queue : TokenQueue
  /-- Leading parts of tags by handle. -/
  handles : List (String × String)
  /-- The nodes with anchors. -/
  anchors : List (String × NodeId)
  /-- The nodes so far. -/
  nodes : Graph

/-- The start of a stream. -/
def Reading.start (source : Source) : Reading := ⟨.start source, [], [], #[]⟩

/-- A step in reading tokens. -/
abbrev Reader := StateT Reading (Except Problem)

namespace Reader

/-- Ends the reading. -/
def fail {α : Type} : Reader α := throw .malformed

/-- The next token, which stays. -/
def peek : Reader Token := do
  let r ← get
  let queue ← r.queue.settle
  set { r with queue := queue }
  match queue.ahead with
  | t :: _ => return t
  | [] => fail

/-- Passes the next token. -/
def drop : Reader Unit := modify fun r => { r with queue := r.queue.take }

/-- Passes the next token if it is the given one. -/
def accept (t : Token) : Reader Bool := do
  if (← peek) = t then
    drop
    return true
  else return false

/-- Passes the next token, which must be the given one. -/
def expect (t : Token) : Reader Unit := do
  if !(← accept t) then fail

/-- Adds a node, under its anchor if it has one. -/
def add (anchor : Option String) (n : Node) : Reader NodeId := do
  let i := (← get).nodes.size
  modify fun r =>
    { r with
      nodes := r.nodes.push n
      anchors :=
        match anchor with
        | some name => (name, i) :: r.anchors
        | none => r.anchors }
  return i

/-- Adds the node of an empty plain scalar. -/
def addEmpty : Reader NodeId := add none ⟨.null, .scalar []⟩

/-- Adds a collection and then reads its content, which can hold the collection. -/
def addCollection (anchor : Option String) (tag : Tag) (usual : Content)
    (content : Reader Content) : Reader NodeId := do
  let i ← add anchor ⟨tag, usual⟩
  let c ← content
  modify fun r => { r with nodes := r.nodes.put i ⟨tag, c⟩ }
  return i

/-- The node of an alias. -/
def aliased (name : String) : Reader NodeId := do
  match (← get).anchors.find? fun a => a.1 = name with
  | some a => return a.2
  | none => fail

/-- The full name of a tag. -/
def tagName (handle : Option String) (suffix : String) : Reader String := do
  match handle with
  | none => return suffix
  | some h =>
    match (← get).handles.find? fun p => p.1 = h with
    | some p => return p.2 ++ suffix
    | none => fail

/-- An anchor at the place, if there is one. -/
def anchor? : Reader (Option String) := do
  match ← peek with
  | .anchor name =>
    drop
    return some name
  | _ => return none

/-- The handle and the suffix of a tag at the place, if there is one. -/
def tag? : Reader (Option (Option String × String)) := do
  match ← peek with
  | .tag handle suffix =>
    drop
    return some (handle, suffix)
  | _ => return none

/-- An anchor and a tag, in either order, either of them or none. -/
def properties : Reader (Option String × Option String) := do
  let (anchor, tag) ←
    match ← anchor? with
    | some name => do pure (some name, ← tag?)
    | none =>
      match ← tag? with
      | some t => do pure (← anchor?, some t)
      | none => pure (none, none)
  match tag with
  | none => return (anchor, none)
  | some (handle, suffix) => return (anchor, some (← tagName handle suffix))

/-- An anchor must be new in its document. -/
def checkAnchor (anchor : Option String) : Reader Unit := do
  match anchor with
  | none => pure ()
  | some name => if (← get).anchors.any fun a => a.1 = name then fail

/-- The tag of a scalar.  The tag `!` leaves the choice to the form of the text. -/
def scalarTag (tag : Option String) (plain : Bool) (text : Text) : Tag :=
  match tag with
  | none => if plain then .ofForm text else .text
  | some "!" => .ofForm text
  | some name => .ofName name

/-- The tag of a collection. -/
def collectionTag (tag : Option String) (usual : Tag) : Tag :=
  match tag with
  | none => usual
  | some "!" => usual
  | some name => .ofName name

/-- The next token may not start the content of an entry in a block. -/
def endsEntry (t : Token) : Bool := t = .key || t = .value || t = .blockEnd

/-- What the content of a node is, as its first token shows. -/
inductive Start where
  | scalar (text : Text) (plain : Bool)
  | indentless
  | flowSequence
  | flowMapping
  | blockSequence
  | blockMapping
  /-- There is no content. -/
  | nothing

/-- The start of the content of a node.  `inBlock` allows block collections,
`indentless` allows entries of a block sequence that is no further right than the
mapping around it. -/
def start (inBlock indentless : Bool) : Reader Start := do
  match ← peek with
  | .scalar text plain => return .scalar text plain
  | .blockEntry => return if indentless then .indentless else .nothing
  | .flowSequenceStart => return .flowSequence
  | .flowMappingStart => return .flowMapping
  | .blockSequenceStart => return if inBlock then .blockSequence else .nothing
  | .blockMappingStart => return if inBlock then .blockMapping else .nothing
  | _ => return .nothing

mutual

/-- A node, with room for `depth` more around its members. -/
def node (depth : Nat) : Nat → Bool → Bool → Reader NodeId
  | 0, _, _ => fail
  | fuel + 1, inBlock, indentless => do
    if depth = 0 then throw .tooDeep
    match ← peek with
    | .alias name =>
      drop
      aliased name
    | _ =>
      let (anchor, tag) ← properties
      let start ← start inBlock indentless
      let sequence (items : Reader (List NodeId)) : Reader NodeId :=
        addCollection anchor (collectionTag tag .list) (.sequence [])
          (do return .sequence (← items))
      let mapping (entries : Reader (List (NodeId × NodeId))) : Reader NodeId :=
        addCollection anchor (collectionTag tag .mapping) (.mapping [])
          (do return .mapping (← entries))
      match start with
      | .nothing =>
        if anchor.isNone && tag.isNone then fail
        checkAnchor anchor
        add anchor ⟨scalarTag tag true [], .scalar []⟩
      | .scalar text plain =>
        drop
        checkAnchor anchor
        add anchor ⟨scalarTag tag plain text, .scalar text⟩
      | .indentless =>
        checkAnchor anchor
        sequence (indentlessItems (depth - 1) fuel)
      | .flowSequence =>
        drop
        checkAnchor anchor
        sequence (flowItems (depth - 1) fuel true)
      | .flowMapping =>
        drop
        checkAnchor anchor
        mapping (flowEntries (depth - 1) fuel true)
      | .blockSequence =>
        drop
        checkAnchor anchor
        sequence (blockItems (depth - 1) fuel)
      | .blockMapping =>
        drop
        checkAnchor anchor
        mapping (blockEntries (depth - 1) fuel)

/-- The items of a block sequence, up to its end. -/
def blockItems (depth : Nat) : Nat → Reader (List NodeId)
  | 0 => fail
  | fuel + 1 => do
    if ← accept .blockEntry then
      let next ← peek
      let n ←
        if next = .blockEntry || next = .blockEnd then addEmpty else node depth fuel true false
      return n :: (← blockItems depth fuel)
    else
      expect .blockEnd
      return []

/-- The items of a block sequence without an end of its own. -/
def indentlessItems (depth : Nat) : Nat → Reader (List NodeId)
  | 0 => fail
  | fuel + 1 => do
    if ← accept .blockEntry then
      let next ← peek
      let n ←
        if next = .blockEntry || endsEntry next then addEmpty else node depth fuel true false
      return n :: (← indentlessItems depth fuel)
    else return []

/-- The entries of a block mapping, up to its end. -/
def blockEntries (depth : Nat) : Nat → Reader (List (NodeId × NodeId))
  | 0 => fail
  | fuel + 1 => do
    if ← accept .key then
      let k ← if endsEntry (← peek) then addEmpty else node depth fuel true true
      let v ← blockValue depth fuel
      return (k, v) :: (← blockEntries depth fuel)
    else
      expect .blockEnd
      return []

/-- The value of an entry in a block mapping, which may be missing. -/
def blockValue (depth : Nat) : Nat → Reader NodeId
  | 0 => fail
  | fuel + 1 => do
    if ← accept .value then
      if endsEntry (← peek) then addEmpty else node depth fuel true true
    else addEmpty

/-- The value of an entry in a flow collection that ends with the given token. -/
def flowValue (depth : Nat) : Nat → Token → Reader NodeId
  | 0, _ => fail
  | fuel + 1, closing => do
    if ← accept .value then
      let next ← peek
      if next = .flowEntry || next = closing then addEmpty else node depth fuel false false
    else addEmpty

/-- The key of an entry in a flow collection that ends with the given token. -/
def flowKey (depth : Nat) : Nat → Token → Reader NodeId
  | 0, _ => fail
  | fuel + 1, closing => do
    let next ← peek
    if next = .value || next = .flowEntry || next = closing then addEmpty
    else node depth fuel false false

/-- The items of a flow sequence, up to its end.  An item may be a mapping with a
single entry. -/
def flowItems (depth : Nat) : Nat → Bool → Reader (List NodeId)
  | 0, _ => fail
  | fuel + 1, first => do
    if ← accept .flowSequenceEnd then return []
    if !first then expect .flowEntry
    if ← accept .flowSequenceEnd then return []
    let n ←
      if ← accept .key then
        addCollection none .mapping (.mapping []) do
          let k ← flowKey (depth - 1) fuel .flowSequenceEnd
          let v ← flowValue (depth - 1) fuel .flowSequenceEnd
          return .mapping [(k, v)]
      else node depth fuel false false
    return n :: (← flowItems depth fuel false)

/-- The entries of a flow mapping, up to its end.  An entry may be a key alone. -/
def flowEntries (depth : Nat) : Nat → Bool → Reader (List (NodeId × NodeId))
  | 0, _ => fail
  | fuel + 1, first => do
    if ← accept .flowMappingEnd then return []
    if !first then expect .flowEntry
    if ← accept .flowMappingEnd then return []
    let entry ←
      if ← accept .key then do
        let k ← flowKey depth fuel .flowMappingEnd
        let v ← flowValue depth fuel .flowMappingEnd
        pure (k, v)
      else do
        let k ← node depth fuel false false
        let v ← addEmpty
        pure (k, v)
    return entry :: (← flowEntries depth fuel false)

end

/-- The handles that every document knows. -/
def usualHandles : List (String × String) := [("!", "!"), ("!!", Tag.commonStart)]

/-- The directives in front of a document.  A version must be 1, there may be one,
and a handle may be given once. -/
def directives : Nat → Bool → Reader Unit
  | 0, _ => fail
  | fuel + 1, versioned => do
    match ← peek with
    | .versionDirective major =>
      if versioned || major ≠ 1 then fail
      drop
      directives fuel true
    | .tagDirective handle leading =>
      if (← get).handles.any fun p => p.1 = handle then fail
      modify fun r => { r with handles := r.handles ++ [(handle, leading)] }
      drop
      directives fuel versioned
    | .otherDirective =>
      drop
      directives fuel versioned
    | _ => modify fun r => { r with handles := r.handles ++ usualHandles }

/-- Passes marks that close a document. -/
def passEnds : Nat → Reader Unit
  | 0 => pure ()
  | fuel + 1 => do
    if ← accept .documentEnd then passEnds fuel

/-- How many calls the rest of the stream can take: a character makes at most four
tokens, and each call passes a token, or is made by one that does. -/
def fuel : Reader Nat := do
  let queue := (← get).queue
  return 16 * (queue.cursor.left + queue.ahead.length + 1)

/-- The content of a document after its opening mark. -/
def content : Reader NodeId := do
  match ← peek with
  | .versionDirective _ | .tagDirective _ _ | .otherDirective => addEmpty
  | .documentStart | .documentEnd | .streamEnd => addEmpty
  | _ => node nestingLimit (← fuel) true false

/-- Whether the stream goes on with a document that has an opening mark. -/
def opens : Reader Bool := do
  passEnds (← fuel)
  if (← peek) = .streamEnd then return false
  directives (← fuel) false
  expect .documentStart
  return true

/-- Whether the stream starts with a document that has no opening mark. -/
def startsBare : Reader Bool := do
  match ← peek with
  | .versionDirective _ | .tagDirective _ _ | .otherDirective => return false
  | .documentStart | .streamEnd => return false
  | _ => return true

/-- A document with the content that is read. -/
def finish (content : Reader NodeId) : Reader (Option Document) := do
  let root ← content
  let _ ← accept .documentEnd
  return some ⟨(← get).nodes, root⟩

/-- The next document, none at the end of the stream.  Only the first one needs no
opening mark. -/
def document? (first : Bool) : Reader (Option Document) := do
  modify fun r => { r with anchors := [], handles := [], nodes := #[] }
  let bare ← if first then startsBare else pure false
  if bare then
    modify fun r => { r with handles := usualHandles }
    finish (do node nestingLimit (← fuel) true false)
  else if ← opens then finish content
  else return none

/-- The end of the stream must be next. -/
def expectEnd : Reader Unit := do
  modify fun r => { r with handles := [] }
  if ← opens then fail

end Reader
end Yaml
end MachineCatalog
