/-
# Help

What the program prints when help is asked for.  Lines are at most
`helpWidth` wide.
-/

import MachineCatalog.CommandLine.Arguments

namespace MachineCatalog
namespace CommandLine

/-- The width of a line of help. -/
def helpWidth : Nat := 78

/-- The lines of some words after a start of the first line; the other lines are
indented to where the words of the first line start.  `line` is the line so far. -/
def wrappedFrom (indent : Nat) (line : Text) : List Text → List Text
  | [] => [line]
  | w :: ws =>
    let longer : Text := line ++ " " ++ w
    if longer.length ≤ helpWidth then wrappedFrom indent longer ws
    else line :: wrappedFrom indent (Text.blanks indent ++ w) ws

/-- The lines on how to call the program or a command of it. -/
def usageLines (call : Text) (parameters : List Text) : List Text :=
  let start : Text := "Usage: " ++ call ++ " [OPTIONS]"
  wrappedFrom (call.length + 8) start parameters

namespace HelpTopic

/-- The lines of help on the program. -/
def programLines : List Text := [
  "",
  "  gcemodel: Compute Engine machine type models.",
  "",
  "Options:",
  "  --version   Show the version and exit.",
  "  -h, --help  Show this message and exit.",
  "",
  "Commands:",
  "  describe  Describe machine types stored in Compute Engine wire form.",
  "  move      Move OBJECT_NAME from SOURCE_BUCKET to TARGET_BUCKET (copy,..."]

/-- The lines of help on `describe`. -/
def describeLines : List Text := [
  "",
  "  Describe machine types stored in Compute Engine wire form.",
  "",
  "  PATHS can be JSON/YAML files or directories; multiple values accepted. With",
  "  --output, the table format is written as Markdown.",
  "",
  "Options:",
  "  --format [table|json|markdown|html]",
  "                                  Output format (default: from config, else",
  "                                  table).",
  "  -o, --output PATH               Write the catalog to this file (default:",
  "                                  stdout).",
  "  --zone TEXT                     Only show machine types in this zone.",
  "  --usable-only                   Hide OBSOLETE and DELETED machine types.",
  "  --skip-invalid                  Skip machine types that fail to map instead of",
  "                                  aborting.",
  "  --config PATH                   Settings file.",
  "  --no-color                      Disable rich terminal color output.",
  "  -h, --help                      Show this message and exit."]

/-- The lines of help on `move`. -/
def moveLines : List Text := [
  "",
  "  Move OBJECT_NAME from SOURCE_BUCKET to TARGET_BUCKET (copy, then delete).",
  "",
  "Options:",
  "  --project TEXT  Project id (default: from config).",
  "  --config PATH   Settings file.",
  "  -h, --help      Show this message and exit."]

/-- The lines of help for a program of the given name. -/
def lines (topic : HelpTopic) (programName : Text) : List Text :=
  match topic with
  | .program => usageLines programName ["COMMAND", "[ARGS]..."] ++ programLines
  | .describe => usageLines (programName ++ " describe") ["PATHS..."] ++ describeLines
  | .move =>
    usageLines (programName ++ " move") ["SOURCE_BUCKET", "OBJECT_NAME", "TARGET_BUCKET"] ++
      moveLines

/-- The text of help. -/
def text (topic : HelpTopic) (programName : Text) : Text :=
  (topic.lines programName).flatMap fun line => line ++ "\n"

end HelpTopic
end CommandLine
end MachineCatalog
