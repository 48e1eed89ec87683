/-
# The program

The program surveys the files that its arguments name, runs, prints its output and its
notices, and writes the file that the run writes.  Of what may be wrong with a file it has
words of its own.  No store can be reached from here, so that a move always ends for want
of credentials.
-/

import MachineCatalog.CommandLine.Run
import Std.Time.DateTime.Timestamp

namespace MachineCatalog
namespace CommandLine

/-- The string of a text, with the replacement character for what no string can hold. -/
def stringOf (t : Text) : String := String.ofList t.chars

/-- The path of a place. -/
def pathOf (place : List Text) : String := stringOf ("/" ++ List.intercalate "/" place)

/-- A computation that looks at files and keeps what it has seen. -/
abbrev Survey := StateT FileSystem IO

/-- The tree at a place; links to directories are left out, and so is what is in a directory
that cannot be read. -/
partial def snapshot (place : List Text) : Survey FileTree := do
  let path ← IO.FS.realPath (pathOf place)
  if ← path.isDir then
    match ← path.readDir.toBaseIO with
    | .error _ => return .directory []
    | .ok found =>
      let mut entries := #[]
      for entry in found do
        let isLink := (← entry.path.symlinkMetadata).type == .symlink
        if !(isLink && (← entry.path.isDir)) then
          let name : Text := entry.fileName
          entries := entries.push (name, ← snapshot (place ++ [name]))
      return .directory entries.toList
  else
    match ← (IO.FS.readBinFile path).toBaseIO with
    | .ok content => return .file content
    | .error _ =>
      modify fun fs => { fs with readable := fun p => p ≠ place && fs.readable p }
      return .file .empty

/-- Whether a directory is at a place. -/
def isDirectoryAt (place : List Text) : IO Bool := do
  match ← (IO.FS.realPath (pathOf place)).toBaseIO with
  | .ok path => path.isDir
  | .error _ => return false

/-- Whether anything is at a place. -/
def existsAt (place : List Text) : IO Bool := do
  match ← (IO.FS.realPath (pathOf place)).toBaseIO with
  | .ok path => path.pathExists
  | .error _ => return false

/-- Whether a file can be opened for writing at a place.  One that was not there before is
not left there. -/
def canWriteAt (place : List Text) : IO Bool := do
  let isNew := !(← existsAt place)
  match ← (IO.FS.Handle.mk (pathOf place) .append).toBaseIO with
  | .ok _ => do
    if isNew then IO.FS.removeFile (pathOf place)
    return true
  | .error _ => return false

/-- Adds a tree at a place. -/
def addTree (t : FileTree) (place : List Text) : Survey Unit :=
  modify fun fs => { fs with root := FileTree.plant t place fs.root }

/-- Adds an empty directory where nothing is yet. -/
def addDirectory (place : List Text) : Survey Unit := do
  if (FileTree.subtree? place (← get).root).isNone then addTree (.directory []) place

/-- Adds what is at the end of a path, and the directories on the way; `place` is
the row of names passed so far, the nearest first. -/
def addPath (whole : Bool) (place : List Text) : List Text → Survey Unit
  | [] => do
    if !whole && (← isDirectoryAt place.reverse) then addDirectory place.reverse
    else if ← existsAt place.reverse then addTree (← snapshot place.reverse) place.reverse
  | name :: names => do
    if ← isDirectoryAt place.reverse then
      addDirectory place.reverse
      if name = "" || name = "." then addPath whole place names
      else if name = ".." then addPath whole place.tail names
      else addPath whole (name :: place) names

/-- Surveys the files that a request reads, and the place of the file that it writes. -/
def survey (request : Request) : Survey Unit := do
  let start (path : Text) : Survey (List Text) := return (← get).start path
  addDirectory (← get).place
  for path in request.output?.toList do
    addPath false (← start path) (FileTree.pathNames path)
    for place in ((← get).placeOf? path).toList do
      let isWritable ← canWriteAt place
      modify fun fs => { fs with writable := fun p => p ≠ place || isWritable }
  for path in request.inputs do
    addPath true (← start path) (FileTree.pathNames path)

/-- The files that a request reads, and the place of the file that it writes. -/
def filesFor (request : Request) : IO FileSystem := do
  let directory : Text := (← IO.currentDir).toString
  let start : FileSystem := {
    root := .directory []
    place := (FileTree.pathNames directory).filter (· ≠ "") }
  let (_, fs) ← (survey request).run start
  return fs

/-- What is said of an obstacle at a file. -/
def reason (file : Text) : Obstacle → Text
  | .unopened => "no file can be opened at " ++ file
  | .notJson _ => file ++ " is no JSON document"
  | .notYaml _ => file ++ " is no stream of YAML documents"
  | .notSettings _ => file ++ " is no YAML document"
  | .unwritable => "no file can be written at " ++ file

/-- The time now, in UTC. -/
def timeNow : IO Moment := do
  let nanoseconds := (← Std.Time.Timestamp.now).toNanosecondsSinceUnixEpoch.toInt
  match Moment.ofInstant? (nanoseconds / 1000) with
  | some now => return now
  | none => throw (IO.userError "the clock is out of range")

/-- A client that cannot connect. -/
def offlineClient : Storage.Client :=
  ⟨[], [], some ⟨.connect, .noCredentials "no credentials for the store are known"⟩⟩

/-- The exit code of an ending, after a message about a failure. -/
def conclude : Ending → IO UInt32
  | .exit code => return UInt32.ofNat code
  | .failed (.rejected why) => do
    IO.eprintln (stringOf why.message)
    return 1
  | .failed (.defect _) => do
    IO.eprintln "an input has a form that is not supported"
    return 1
  | .refused refusal => do
    IO.eprintln (stringOf refusal.message)
    return 1

end CommandLine
end MachineCatalog

open MachineCatalog CommandLine in
/-- Runs the program. -/
def main (args : List String) : IO UInt32 := do
  let args := args.map Text.ofString
  let files ← filesFor (Request.ofArguments args)
  let console := Console.terminal reason
  let outcome := CommandLine.run args
    ⟨Report.toolName, files, console, offlineClient, ← timeNow⟩
  for (path, content) in files.root.changes outcome.world.files.root do
    IO.FS.writeBinFile (pathOf [path]) content
  IO.print (stringOf outcome.output)
  for notice in outcome.notices do
    IO.eprintln (stringOf ((console.notice (notice.text console)).getD []))
  conclude outcome.ending
