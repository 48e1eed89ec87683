/-
# Moving objects

An object moves to another bucket by a copy, and after it the removal of what
was copied.  The name stays.
-/

import MachineCatalog.Storage.Client

namespace MachineCatalog
namespace Storage

/-- What is moved, and where. -/
structure MoveOrder where
  source : Text
  name : Text
  target : Text

namespace MoveOrder

/-- The line that reports a finished move. -/
def report (o : MoveOrder) : Text :=
  "Moved object " ++ o.name ++ " from bucket " ++ o.source ++ " to " ++ o.target

/-- Moves the object with an open client. -/
def run (o : MoveOrder) : Session Unit := do
  match ← Session.lookUp o.source o.name with
  | none =>
    Session.refuse (.notFound ("gs://" ++ o.source ++ "/" ++ o.name ++ " does not exist"))
  | some content =>
    Session.copy o.source o.name content o.target
    Session.delete o.source o.name

/-- Opens a client for a project and moves the object. -/
def runFor (o : MoveOrder) (project : Value) : Session Unit := do
  Session.connect project
  run o

/-- Moves the object with an open client, or with one that is opened for a project. -/
def session (o : MoveOrder) : Option Value → Session Unit
  | none => run o
  | some project => runFor o project

end MoveOrder

/-- What a move leaves: the client, what was printed, and whether the object has moved. -/
structure Moved where
  client : Client
  output : Text
  outcome : Except Refusal Unit

/-- Moves the object, and prints the report when it has moved. -/
def MoveOrder.perform (o : MoveOrder) (project : Option Value) (c : Client) : Moved :=
  let (c, outcome) := o.session project c
  match outcome with
  | .ok () => ⟨c, o.report ++ "\n", .ok ()⟩
  | .error refusal => ⟨c, [], .error refusal⟩

end Storage
end MachineCatalog
