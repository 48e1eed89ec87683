/-
# Runs of the program
-/

import MachineCatalog.CommandLine.Describe
import MachineCatalog.CommandLine.Help
import MachineCatalog.CommandLine.Move

namespace MachineCatalog
namespace CommandLine

/-- Carries out a request. -/
def Request.run (request : Request) (w : World) : Outcome :=
  match request with
  | .version => .print w (Report.toolName ++ ", version " ++ Report.toolVersion ++ "\n")
  | .help topic => .print w (topic.text w.programName)
  | .misuse => .quiet w 2
  | .impossible failure => .failed w failure
  | .describe order => order.run w
  | .move request => request.run w

/-- Runs the program with arguments. -/
def run (args : List Text) (w : World) : Outcome := (Request.ofArguments args).run w

end CommandLine
end MachineCatalog
