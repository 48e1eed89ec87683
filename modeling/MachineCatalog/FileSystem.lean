/-
# File systems

A process sees one tree of files from its working directory.  A path that starts with a
slash leads from the root of the tree, any other path from the working directory.  Nothing
can be reached by the empty path, nor by one that is too long.  Reading a file may be
forbidden, and so may writing; any directory may be entered and listed.
-/

import MachineCatalog.FileTree

namespace MachineCatalog

/-- The files of a system as a process sees them. -/
structure FileSystem where
  root : FileTree
  /-- The place of the working directory. -/
  place : List Text := []
  /-- Whether the file at a place may be read. -/
  readable : List Text → Bool := fun _ => true
  /-- Whether the file at a place may be written, or made there. -/
  writable : List Text → Bool := fun _ => true

namespace FileSystem

open FileTree (pathNames pathLimit isFileName)

/-- Where a path starts, the nearest name first. -/
def start (fs : FileSystem) (path : Text) : List Text :=
  if path.startsWith "/" then [] else fs.place.reverse

/-- Whether a path can lead anywhere. -/
def isReachable (path : Text) : Bool := !path.isEmpty && path.octetCount < pathLimit

/-- The place to which a path leads, whether or not something is there. -/
def placeOf? (fs : FileSystem) (path : Text) : Option (List Text) :=
  if isReachable path then
    (FileTree.follow? fs.root (fs.start path) (pathNames path)).map List.reverse
  else none

/-- What is at a path. -/
def find? (fs : FileSystem) (path : Text) : Option FileTree :=
  (fs.placeOf? path).bind fun place => FileTree.subtree? place fs.root

/-- Whether something is at a path. -/
def contains (fs : FileSystem) (path : Text) : Bool := (fs.find? path).isSome

/-- The content of the file at a path.  Fails when no file can be opened there. -/
def read? (fs : FileSystem) (path : Text) : Option ByteArray := do
  let place ← fs.placeOf? path
  let t ← FileTree.subtree? place fs.root
  if fs.readable place then t.content? else none

/-- The place of the file that is to be opened for writing at a path. -/
def target? (fs : FileSystem) (path : Text) : Option (List Text) :=
  if isReachable path then
    match (pathNames path).reverse with
    | [] => none
    | name :: above =>
      if isFileName name then
        (FileTree.follow? fs.root (fs.start path) above.reverse).map fun place =>
          place.reverse ++ [name]
      else none
  else none

/-- Writes a file at a path.  Fails when no file can be opened there. -/
def write? (fs : FileSystem) (path : Text) (content : ByteArray) : Option FileSystem := do
  let place ← fs.target? path
  if fs.writable place then
    (FileTree.writeAt? place content fs.root).map fun root => { fs with root := root }
  else none

end FileSystem
end MachineCatalog
