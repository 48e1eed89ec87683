/-
# What a run sees and leaves

A run of the program sees the name under which it was started, the files, a console, a
client of the store and a clock.  It leaves files and client as they are then, what it
printed, and how it ended.
-/

import MachineCatalog.FileSystem
import MachineCatalog.Notice
import MachineCatalog.Storage.Client

namespace MachineCatalog
namespace CommandLine

/-- What a run can see and change. -/
structure World where
  programName : Text
  files : FileSystem
  console : Console
  client : Storage.Client
  now : Moment

/-- How a run ended. -/
inductive Ending where
  /-- With an exit code. -/
  | exit (code : Nat)
  /-- With a failure that nothing handled. -/
  | failed (failure : Failure)
  /-- With a refusal of the store that nothing handled. -/
  | refused (refusal : Storage.Refusal)

/-- What a run leaves. -/
structure Outcome where
  world : World
  output : Text
  notices : List Notice
  ending : Ending

namespace Outcome

/-- A run that changes and prints nothing. -/
def quiet (w : World) (code : Nat) : Outcome := ⟨w, [], [], .exit code⟩

/-- A run that ends with a failure. -/
def failed (w : World) (failure : Failure) : Outcome := ⟨w, [], [], .failed failure⟩

/-- A run that prints a text.  Half of a surrogate pair cannot be printed, and
nothing is printed then. -/
def print (w : World) (text : Text) : Outcome :=
  if text.any CodePoint.isHalf then failed w (.defect .unpairedHalf)
  else ⟨w, text, [], .exit 0⟩

/-- The run with further notices before its own. -/
def after (r : Outcome) (notices : List Notice) : Outcome :=
  { r with notices := notices ++ r.notices }

/-- A run that gives a notice first.  It fails when the console refuses that. -/
def telling (w : World) (n : Notice) (next : Outcome) : Outcome :=
  if w.console.shows n then next.after [n] else failed w (.defect .unfitMarks)

end Outcome
end CommandLine
end MachineCatalog
