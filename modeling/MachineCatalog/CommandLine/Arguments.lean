/-
# Arguments

A command line is a command with its options and paths.  An option that takes a
value takes the rest of its argument or the next argument, whatever that is; a
long option takes it after `=`.  Short options may share an argument.  After `--`
nothing is an option.  When an option is given more than once, the last value
counts.

A command that does not exist but starts with a dash, which it can after `--`, is
read once more as options.

Values are examined in the order in which options are given, and plain arguments
after them: a format must exist, and a path must be one that a file can have.
-/

import MachineCatalog.FileTree
import MachineCatalog.Settings

namespace MachineCatalog
namespace CommandLine

/-- The options of a command by name, with their dashes. -/
structure OptionTable where
  /-- Options with a value. -/
  valued : List Text
  /-- Options without a value. -/
  flags : List Text
  /-- Whether options may stand after the first plain argument. -/
  interspersed : Bool

/-- What arguments amount to. -/
structure Parsed where
  /-- Options in the order given; flags have no value. -/
  options : List (Text × Option Text) := []
  /-- Plain arguments in the order given. -/
  plain : List Text := []

namespace Parsed

/-- Whether a flag is given. -/
def has (p : Parsed) (name : Text) : Bool := p.options.any fun o => o.1 = name

/-- The last value of an option with several names. -/
def lastOf? (p : Parsed) (names : List Text) : Option Text :=
  (p.options.reverse.find? fun o => names.contains o.1).bind (·.2)

/-- The last value of an option. -/
def value? (p : Parsed) (name : Text) : Option Text := p.lastOf? [name]

/-- The last value of an option, if it is not empty. -/
def text? (p : Parsed) (name : Text) : Option Text := (p.value? name).filter (!·.isEmpty)

/-- Puts a plain argument in front. -/
def addPlain (arg : Text) (p : Parsed) : Parsed := { p with plain := arg :: p.plain }

end Parsed

/-- The text before and after the first `=`. -/
def splitAssignment (arg : Text) : Text × Option Text :=
  let isBefore (c : CodePoint) : Bool := c ≠ '='
  match arg.dropWhile isBefore with
  | [] => (arg, none)
  | _ :: value => (arg.takeWhile isBefore, some value)

/-- What options in one argument amount to. -/
inductive OptionForm where
  /-- Some options, all complete. -/
  | complete (options : List (Text × Option Text))
  /-- Some flags, and an option that takes the next argument. -/
  | wantsValue (options : List (Text × Option Text)) (name : Text)

/-- Short options that share an argument. -/
def shortOptions? (table : OptionTable) : Text → Option OptionForm
  | [] => some (.complete [])
  | c :: rest =>
    let name : Text := ['-', c]
    if table.valued.contains name then
      match rest with
      | [] => some (.wantsValue [] name)
      | _ => some (.complete [(name, some rest)])
    else if table.flags.contains name then
      match shortOptions? table rest with
      | none => none
      | some (.complete os) => some (.complete ((name, none) :: os))
      | some (.wantsValue os last) => some (.wantsValue ((name, none) :: os) last)
    else none

/-- The options in an argument that starts with a dash. -/
def optionForm? (table : OptionTable) (arg : Text) : Option OptionForm :=
  let (name, value) := splitAssignment arg
  let isLong := 2 < name.length
  if isLong && table.valued.contains name then
    match value with
    | some v => some (.complete [(name, some v)])
    | none => some (.wantsValue [] name)
  else if isLong && table.flags.contains name then
    match value with
    | some _ => none
    | none => some (.complete [(name, none)])
  else if arg.startsWith "--" then none
  else shortOptions? table (arg.drop 1)

/-- Whether an argument starts with a dash and goes on. -/
def looksLikeOption (arg : Text) : Bool := arg.startsWith "-" && 1 < arg.length

/-- Reads arguments; none when they break the rules. -/
def parse? (table : OptionTable) : List Text → Option Parsed
  | [] => some {}
  | arg :: rest =>
    if arg = "--" then some { plain := rest }
    else if looksLikeOption arg then
      match optionForm? table arg with
      | none => none
      | some (.complete os) =>
        (parse? table rest).map fun p => { p with options := os ++ p.options }
      | some (.wantsValue os name) =>
        match rest with
        | [] => none
        | value :: more =>
          (parse? table more).map fun p =>
            { p with options := os ++ (name, some value) :: p.options }
    else if table.interspersed then (parse? table rest).map (Parsed.addPlain arg)
    else some { plain := arg :: rest }

/-- The options before the command. -/
def programOptions : OptionTable := ⟨[], ["--version", "--help", "-h"], false⟩

/-- The options of `describe`. -/
def describeOptions : OptionTable :=
  ⟨["--format", "--output", "-o", "--zone", "--config"],
    ["--usable-only", "--skip-invalid", "--no-color", "--help", "-h"], true⟩

/-- The options of `move`. -/
def moveOptions : OptionTable := ⟨["--project", "--config"], ["--help", "-h"], true⟩

/-- The character without its case, as far as the names of formats need it. -/
def foldChar (c : CodePoint) : CodePoint :=
  if c.val = 0x17F then 's' else if c.val = 0x212A then 'k' else c.toChar.toLower

/-- The format of the given name, case aside. -/
def formatChoice? (name : Text) : Option ReportFormat :=
  ReportFormat.ofLabel? (name.map foldChar)

/-- What `describe` is asked to do. -/
structure DescribeOrder where
  paths : List Text
  format : Option ReportFormat
  output : Option Text
  zone : Option Text
  usableOnly : Bool
  skipInvalid : Bool
  config : Option Text
  colored : Bool

/-- What `move` is asked to do. -/
structure MoveRequest where
  source : Text
  name : Text
  target : Text
  project : Option Text
  config : Option Text

/-- What help can be about. -/
inductive HelpTopic where
  | program
  | describe
  | move

/-- What the program is asked to do. -/
inductive Request where
  | version
  | help (topic : HelpTopic)
  | describe (order : DescribeOrder)
  | move (request : MoveRequest)
  /-- The arguments break the rules. -/
  | misuse
  /-- An argument cannot be what it should be. -/
  | impossible (failure : Failure)

/-- Whether help is asked for. -/
def wantsHelp (p : Parsed) : Bool := p.has "--help" || p.has "-h"

/-- The names of the option for the output. -/
def outputNames : List Text := ["--output", "-o"]

/-- The request that stands in the place of another one with an impossible path. -/
def requirePossible (path : Text) : Except Request Unit :=
  (FileTree.requirePath path).mapError .impossible

/-- Examines the last value of an option. -/
def requireValue (p : Parsed) (name : Text) : Except Request Unit :=
  if name = "--format" then
    match (p.value? name).map formatChoice? with
    | some none => .error .misuse
    | _ => .ok ()
  else if name = "--config" then requirePossible ((p.value? name).getD [])
  else if outputNames.contains name then requirePossible ((p.lastOf? outputNames).getD [])
  else .ok ()

/-- The request of `describe`, or one in its place. -/
def describeRequest? (p : Parsed) : Except Request Request := do
  if wantsHelp p then throw (.help .describe)
  p.options.forM fun o => requireValue p o.1
  if p.plain.isEmpty then throw .misuse
  p.plain.forM requirePossible
  return .describe {
    paths := p.plain
    format := (p.value? "--format").bind formatChoice?
    output := (p.lastOf? outputNames).filter (!·.isEmpty)
    zone := p.text? "--zone"
    usableOnly := p.has "--usable-only"
    skipInvalid := p.has "--skip-invalid"
    config := p.text? "--config"
    colored := !p.has "--no-color" }

/-- The request of `move`, or one in its place. -/
def moveRequest? (p : Parsed) : Except Request Request := do
  if wantsHelp p then throw (.help .move)
  p.options.forM fun o => requireValue p o.1
  match p.plain with
  | [source, name, target] =>
    return .move ⟨source, name, target, p.text? "--project", p.text? "--config"⟩
  | _ => throw .misuse

/-- The request that was meant, or the one in its place. -/
def settled : Except Request Request → Request
  | .ok request => request
  | .error request => request

/-- The request of `describe` with the given arguments. -/
def describeRequest (args : List Text) : Request :=
  match parse? describeOptions args with
  | none => .misuse
  | some p => settled (describeRequest? p)

/-- The request of `move` with the given arguments. -/
def moveRequest (args : List Text) : Request :=
  match parse? moveOptions args with
  | none => .misuse
  | some p => settled (moveRequest? p)

/-- The request of the options in front of the command, if there are any. -/
def programRequest? (p : Parsed) : Option Request :=
  p.options.head?.map fun (o : Text × Option Text) =>
    if o.1 = "--version" then .version else .help .program

/-- The request of a command that does not exist. -/
def unknownCommand (name : Text) (args : List Text) : Request :=
  if looksLikeOption name then
    ((parse? programOptions (name :: args)).bind programRequest?).getD .misuse
  else .misuse

/-- The request of a whole command line. -/
def Request.ofArguments (args : List Text) : Request :=
  match parse? programOptions args with
  | none => .misuse
  | some p =>
    match programRequest? p, p.plain with
    | some request, _ => request
    | none, [] => .misuse
    | none, name :: rest =>
      if name = "describe" then describeRequest rest
      else if name = "move" then moveRequest rest
      else unknownCommand name rest

/-- The paths that a request reads. -/
def Request.inputs : Request → List Text
  | .describe o => o.config.getD Settings.defaultFile :: o.paths
  | .move m => [m.config.getD Settings.defaultFile]
  | _ => []

/-- The path that a request writes. -/
def Request.output? : Request → Option Text
  | .describe o => o.output
  | _ => none

end CommandLine
end MachineCatalog
