/-
# Notices

What a run tells its user besides its output.  Parts of a notice have a style; its text shows
the styles as marks in square brackets, and names of files, documents and messages stand in
it as they are.  So they may bring marks of their own, and a console refuses a text whose
marks do not fit together.

A computation gives its notices in order (`Noted`).  On a console it goes on as long as these
are shown, and the first that is refused ends it (`Noted.printedOn`).
-/

import MachineCatalog.Failure
import MachineCatalog.Markup

namespace MachineCatalog

/-- What keeps a file from being read or written. -/
inductive Obstacle where
  /-- It cannot be opened for reading. -/
  | unopened
  /-- Its content is no JSON document. -/
  | notJson (content : ByteArray)
  /-- Its content is no stream of YAML documents. -/
  | notYaml (content : ByteArray)
  /-- Its content is no single YAML document. -/
  | notSettings (content : ByteArray)
  /-- It cannot be opened for writing. -/
  | unwritable

/-- Where notices and tables are shown, and what the system says of a file. -/
structure Console where
  /-- What is said of an obstacle at a file. -/
  reason : Text → Obstacle → Text
  /-- What a text with marks is shown as in a notice; none when it is refused. -/
  notice : Text → Option Text
  /-- What a text with marks is shown as in a table; none when it is refused. -/
  cell : Text → Option Text

/-- A terminal, which refuses texts whose tags close nothing. -/
def Console.terminal (reason : Text → Obstacle → Text) : Console :=
  ⟨reason, Markup.show?, Markup.show?⟩

/-- A message to the user. -/
inductive Notice where
  /-- A path given by the user does not exist. -/
  | missingPath (path : Text)
  /-- A file cannot be read as a document. -/
  | unreadable (file : Text) (why : Obstacle)
  /-- A document of a source has none of the known shapes. -/
  | unrecognised (source : Text)
  /-- A machine type of a source is left out. -/
  | skipped (source : Text) (why : Rejection)
  /-- The settings file given by the user does not exist. -/
  | missingSettings (file : Text)
  /-- The settings file holds no mapping. -/
  | settingsNotMapping (file : Text)
  /-- The settings name a format that does not exist. -/
  | unknownFormat (format file : Text)
  /-- A machine type cannot be read, and the run ends. -/
  | mappingError (why : Rejection)
  /-- Nothing is left to describe. -/
  | noneFound
  /-- So many machine types are described. -/
  | found (count : Nat)
  /-- The report cannot be written to its file. -/
  | unwritable (file : Text)
  /-- The report has been written to a file. -/
  | written (file : Text)
  /-- No project is known for a move. -/
  | noProject
  /-- The store refused a move. -/
  | moveFailed (message : Text)

namespace Notice

/-- A part of a message: plain text, or text in a style. -/
inductive Piece where
  | plain (text : Text)
  | styled (style text : Text)

/-- A part with the marks of its style around it. -/
def Piece.marked : Piece → Text
  | .plain text => text
  | .styled style text => Markup.styled style text

/-- The parts of a warning. -/
def warning (text : Text) : List Piece := [.styled "yellow" "Warning:", .plain (" " ++ text)]

/-- The parts of a message about a run that ends. -/
def trouble (title text : Text) : List Piece := [.styled "red" title, .plain (" " ++ text)]

/-- The parts of a message on a console. -/
def pieces (c : Console) : Notice → List Piece
  | .missingPath path => warning ("'" ++ path ++ "' does not exist, skipping.")
  | .unreadable file why => warning ("could not read " ++ file ++ ": " ++ c.reason file why)
  | .unrecognised source =>
    let place : Text := if source.isEmpty then "<input>" else source
    [.styled "dim" "Debug:", .plain (" skipping unrecognised document in " ++ place)]
  | .skipped source why => warning ("skipping machine type in " ++ source ++ ": " ++ why.message)
  | .missingSettings file =>
    warning ("config file '" ++ file ++ "' does not exist, using defaults.")
  | .settingsNotMapping file => warning (file ++ " is not a mapping, using defaults.")
  | .unknownFormat format file =>
    warning ("unknown format '" ++ format ++ "' in " ++ file ++ ", using 'table'.")
  | .mappingError why => trouble "Mapping error:" why.message
  | .noneFound => [.styled "yellow" "No machine types found."]
  | .found count =>
    [.plain "Found ", .styled "bold" (Text.decimal count), .plain " machine types."]
  | .unwritable file => trouble "Could not write report:" (c.reason file .unwritable)
  | .written file => [.plain "Catalog written to ", .styled "bold" file]
  | .noProject =>
    trouble "No project given:" "pass --project or set 'project' in gcemodel.yaml."
  | .moveFailed message => trouble "Move failed:" message

/-- The whole message with marks for its styles. -/
def text (c : Console) (n : Notice) : Text := ((n.pieces c).map Piece.marked).flatten

end Notice

/-- Whether the console shows a notice, rather than refuse it. -/
def Console.shows (c : Console) (n : Notice) : Bool := (c.notice (n.text c)).isSome

/-- A computation that may fail, together with the notices that it gives on the
way, oldest first.  What was told before a failure stays told. -/
structure Noted (α : Type) where
  notices : List Notice
  outcome : Except Failure α

namespace Noted

/-- Gives one notice. -/
def tell (n : Notice) : Noted Unit := ⟨[n], .ok ()⟩

/-- A computation that gives no notice. -/
def lift {α : Type} (x : Except Failure α) : Noted α := ⟨[], x⟩

/-- Goes on with the result, if there is one. -/
def bind {α β : Type} (x : Noted α) (f : α → Noted β) : Noted β :=
  match x.outcome with
  | .error e => ⟨x.notices, .error e⟩
  | .ok a =>
    let y := f a
    ⟨x.notices ++ y.notices, y.outcome⟩

instance : Monad Noted where
  pure a := ⟨[], .ok a⟩
  bind := bind

/-- The computation on a console.  It ends at the first notice that the console refuses. -/
def printedOn {α : Type} (c : Console) (x : Noted α) : Noted α :=
  if x.notices.all c.shows then x else ⟨x.notices.takeWhile c.shows, abort .unfitMarks⟩

end Noted
end MachineCatalog
