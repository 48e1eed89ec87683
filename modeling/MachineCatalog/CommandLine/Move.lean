/-
# Moving an object by command

The command `move` moves an object for a project, which the option or the
settings name.  A refusal of the store ends the run with exit code 2.
-/

import MachineCatalog.CommandLine.Arguments
import MachineCatalog.CommandLine.World
import MachineCatalog.Storage.Move

namespace MachineCatalog
namespace CommandLine
namespace MoveRequest

/-- The project: the option, or else the settings. -/
def wantedProject (m : MoveRequest) (files : FileSystem) : Noted Value :=
  match m.project with
  | some project => pure (.text project)
  | none => do
    let settings ← Settings.load files m.config
    return settings.project

/-- Moves the object for a project. -/
def move (m : MoveRequest) (w : World) (project : Value) : Outcome :=
  let order : Storage.MoveOrder := ⟨m.source, m.name, m.target⟩
  let moved := order.perform (some project) w.client
  let w := { w with client := moved.client }
  match moved.outcome with
  | .ok () => .print w moved.output
  | .error .broken => ⟨w, [], [], .refused .broken⟩
  | .error refusal => .telling w (.moveFailed refusal.message) (.quiet w 2)

/-- Runs the command. -/
def run (m : MoveRequest) (w : World) : Outcome :=
  let project := (m.wantedProject w.files).printedOn w.console
  let outcome : Outcome :=
    match project.outcome with
    | .error e => .failed w e
    | .ok p => if p.counts then m.move w p else .telling w .noProject (.quiet w 2)
  outcome.after project.notices

end MoveRequest
end CommandLine
end MachineCatalog
