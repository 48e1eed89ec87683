/-
# Trees of files

A tree of files and directories, without links.  A place in it is a row of names from the root
on.  A path is a text: names between slashes, of which `.` and an empty one stay in a directory
and `..` goes back up, as far as the root.  Directories nested to any depth are walked: that the
stack of calls has a limit is left out here.
-/

import MachineCatalog.Identity

namespace MachineCatalog

/-- A file with its content, or a directory with its named entries. -/
inductive FileTree where
  | file (content : ByteArray)
  | directory (entries : List (Text × FileTree))

namespace FileTree

/-- The entries of a directory; a file has none. -/
def entries : FileTree → List (Text × FileTree)
  | .file _ => []
  | .directory es => es

/-- The entry of the given name. -/
def child? (t : FileTree) (name : Text) : Option FileTree :=
  (t.entries.find? fun e => e.1 = name).map (·.2)

/-- The subtree at a row of names. -/
def subtree? : List Text → FileTree → Option FileTree
  | [], t => some t
  | name :: names, t => (t.child? name).bind (subtree? names)

/-- The content of a file; a directory has none. -/
def content? : FileTree → Option ByteArray
  | .file content => some content
  | .directory _ => none

/-- The names of a path. -/
def pathNames (path : Text) : List Text := Identity.segments path

/-- The least number of octets that is too many for a path. -/
def pathLimit : Nat := 4096

/-- Follows the names of a path from the directory at `place`, the nearest name
first, to the place where it leads. -/
def follow? (root : FileTree) : List Text → List Text → Option (List Text)
  | place, [] => some place
  | place, name :: names =>
    match subtree? place.reverse root with
    | some (.directory _) =>
      if name = "" || name = "." then follow? root place names
      else if name = ".." then follow? root place.tail names
      else follow? root (name :: place) names
    | _ => none

/-- Puts an entry into a directory, in its place if it has one. -/
def putEntry (name : Text) (t : FileTree) : List (Text × FileTree) → List (Text × FileTree)
  | [] => [(name, t)]
  | e :: es => if e.1 = name then (name, t) :: es else e :: putEntry name t es

/-- Puts a file at a row of names whose last one names the file.  Fails when a
directory on the way is missing, or when the place is a directory. -/
def writeAt? : List Text → ByteArray → FileTree → Option FileTree
  | _, _, .file _ => none
  | [], _, .directory _ => none
  | [name], content, .directory es =>
    match (FileTree.directory es).child? name with
    | some (.directory _) => none
    | _ => some (.directory (putEntry name (.file content) es))
  | name :: names, content, .directory es => do
    let t ← (FileTree.directory es).child? name
    let t ← writeAt? names content t
    return .directory (putEntry name t es)

/-- Puts a tree at a row of names, making the directories on the way. -/
def plant (t : FileTree) : List Text → FileTree → FileTree
  | [], _ => t
  | name :: names, root =>
    let below := (root.child? name).getD (.directory [])
    .directory (putEntry name (plant t names below) root.entries)

/-- The greatest number of octets in the name of a file. -/
def nameLimit : Nat := 255

/-- Whether a file can have the given name. -/
def isFileName (name : Text) : Bool :=
  name ≠ "" && name ≠ "." && name ≠ ".." && name.octetCount ≤ nameLimit

/-- Puts a name behind the path of a directory. -/
def join (directory name : Text) : Text :=
  if directory.isEmpty || directory.endsWith "/" then directory ++ name
  else directory ++ "/" ++ name

/-- A path must be one that the file system can be asked for: it has no NUL, and
no half of a surrogate pair but those that stand for single octets. -/
def requirePath (path : Text) : Except Failure Unit :=
  if path.any fun c => c.isHalf && !(0xDC80 ≤ c.val && c.val ≤ 0xDCFF) then abort .unpairedHalf
  else if path.contains (.ofNat 0) then abort .impossiblePath
  else .ok ()

mutual

/-- The files of a tree by path, those of a directory before those of its
subdirectories.  A directory whose path is too long is passed over. -/
def walk (path : Text) : FileTree → List (Text × List (Text × ByteArray))
  | .file _ => []
  | .directory es =>
    if path.octetCount < pathLimit then (path, filesOf es) :: walkEntries path es else []

/-- The files among entries. -/
def filesOf : List (Text × FileTree) → List (Text × ByteArray)
  | [] => []
  | (name, .file content) :: es => (name, content) :: filesOf es
  | (_, .directory _) :: es => filesOf es

/-- The files below the directories among entries. -/
def walkEntries (path : Text) : List (Text × FileTree) →
    List (Text × List (Text × ByteArray))
  | [] => []
  | (name, t) :: es => walk (join path name) t ++ walkEntries path es

end

/-- All files by path from the root. -/
def files (root : FileTree) : List (Text × ByteArray) :=
  (walk "" root).flatMap fun d => d.2.map fun f => (join d.1 f.1, f.2)

/-- The files that are new in a later tree, or have another content there. -/
def changes (before after : FileTree) : List (Text × ByteArray) :=
  after.files.filter fun f => !(before.files.any fun o => o.1 = f.1 && o.2.data = f.2.data)

end FileTree
end MachineCatalog
