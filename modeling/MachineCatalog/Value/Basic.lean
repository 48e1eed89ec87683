/-
# Values of documents

What a JSON or YAML document holds.  A mapping keeps its entries in the order
in which their keys first appeared, and its keys differ pairwise.  JSON gives
the values `null`, `bool`, `int`, `float`, `text`, `list` and mappings with text
keys; the other forms come from YAML alone.

A list or a mapping may hold itself, directly or through others.  Around each
collection that does there is a knot, and inside of it `back` stands for the
whole.  `opened` undoes one knot, so that what it gives has its members in
sight: `items?` and `entries?` see through knots.
-/

import MachineCatalog.Calendar.Moment
import MachineCatalog.Number.Binary64

namespace MachineCatalog

/-- A value of a document. -/
inductive Value where
  | null
  | bool (b : Bool)
  | int (n : Int)
  | float (x : Binary64)
  | text (s : Text)
  | octets (bs : List UInt8)
  | date (d : Date)
  | moment (m : Moment)
  | list (items : List Value)
  | pair (first second : Value)
  | set (members : List Value)
  | mapping (entries : List (Value × Value))
  /-- A list or a mapping that holds itself; knots with one label are around one
  collection. -/
  | knot (label : Nat) (body : Value)
  /-- The collection with the knot of the given label, inside of that knot. -/
  | back (label : Nat)
deriving Inhabited

namespace Value

/-- A mapping with text keys. -/
def object (fields : List (Text × Value)) : Value :=
  .mapping (fields.map fun f => (.text f.1, f.2))

/-- Whether a value is the given text. -/
def isText (v : Value) (s : Text) : Bool :=
  match v with
  | .text t => t = s
  | _ => false

/-- Whether a value is `null`. -/
def isNull : Value → Bool
  | .null => true
  | _ => false

mutual

/-- The value with another one in the place of `back label`. -/
def fill (label : Nat) (whole : Value) : Value → Value
  | .list items => .list (fillItems label whole items)
  | .pair a b => .pair (fill label whole a) (fill label whole b)
  | .set members => .set (fillItems label whole members)
  | .mapping entries => .mapping (fillEntries label whole entries)
  | .knot l body => if l = label then .knot l body else .knot l (fill label whole body)
  | .back l => if l = label then whole else .back l
  | v => v

/-- The members of a list, each with another value in the place of `back label`. -/
def fillItems (label : Nat) (whole : Value) : List Value → List Value
  | [] => []
  | v :: vs => fill label whole v :: fillItems label whole vs

/-- The entries of a mapping, each with another value in the place of
`back label`. -/
def fillEntries (label : Nat) (whole : Value) : List (Value × Value) → List (Value × Value)
  | [] => []
  | (k, v) :: es => (fill label whole k, fill label whole v) :: fillEntries label whole es

end

/-- A collection with a knot, without the knot. -/
def opened : Value → Value
  | .knot label body => fill label (.knot label body) body
  | v => v

/-- The members of a list. -/
def items? (v : Value) : Option (List Value) :=
  match v.opened with
  | .list items => some items
  | _ => none

/-- The entries of a mapping. -/
def entries? (v : Value) : Option (List (Value × Value)) :=
  match v.opened with
  | .mapping entries => some entries
  | _ => none

/-- Whether a value is a list. -/
def isList (v : Value) : Bool := v.items?.isSome

/-- Whether a value is a mapping. -/
def isMapping (v : Value) : Bool := v.entries?.isSome

/-- The value under a text key. -/
def get? (entries : List (Value × Value)) (key : Text) : Option Value :=
  (entries.find? fun e => e.1.isText key).map (·.2)

/-- The value under a text key, `null` when there is none. -/
def get (entries : List (Value × Value)) (key : Text) : Value :=
  (get? entries key).getD .null

/-- Zero, `null`, false and whatever is empty do not count. -/
def counts : Value → Bool
  | .null => false
  | .bool b => b
  | .int n => n ≠ 0
  | .float x => x.isNonzero
  | .text s => !s.isEmpty
  | .octets bs => !bs.isEmpty
  | .date _ => true
  | .moment _ => true
  | .list items => !items.isEmpty
  | .pair _ _ => true
  | .set members => !members.isEmpty
  | .mapping entries => !entries.isEmpty
  | .knot _ body => body.counts
  | .back _ => true

end Value
end MachineCatalog
