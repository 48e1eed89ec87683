/-
# Reading YAML streams

A stream is read as the values of all its documents, each of which is known
before the next one is read, or as the value of the one document that it may
hold; a stream without documents then stands for `null`.
-/

import MachineCatalog.Yaml.Meaning

namespace MachineCatalog
namespace Yaml
namespace Reader

/-- The values of the documents left, in order. -/
def values : Nat → Bool → Reader (List Value)
  | 0, _ => fail
  | fuel + 1, first => do
    match ← document? first with
    | none => return []
    | some d =>
      let v ← d.value
      return v :: (← values fuel false)

/-- The value of the single document. -/
def single : Reader Value := do
  match ← document? true with
  | none => return .null
  | some d =>
    expectEnd
    d.value

end Reader

/-- The values of all documents of a source.  Every document but the first has an
opening mark, so the text bounds their number. -/
def readAll (source : Source) : Except Problem (List Value) :=
  (Reader.values (source.text.length + 2) true).run' (.start source)

/-- The value of the single document of a source. -/
def readSingle (source : Source) : Except Problem Value := Reader.single.run' (.start source)

end Yaml
end MachineCatalog
