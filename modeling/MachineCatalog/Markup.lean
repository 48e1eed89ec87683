/-
# Marks in texts for a terminal

A text for a terminal may hold tags in square brackets.  `[red]` opens a style and
`[/red]` closes it, the one of that name that was opened last; `[/]` closes the last of
all.  What is still open at the end of the text is closed there.  A tag that closes
nothing makes the whole text unfit.

A tag starts with a small letter or one of `#`, `/` and `@`, and no bracket opens before
it is closed; every other bracket is text.  A backslash in front of a tag makes a text of
it, a backslash in front of any bracket is not shown, and two in front of a tag stand for
one.

Which styles there are does not matter here.  Names are compared without their case and
without blanks around them; a style that goes by two names counts as two.  What a tag that
starts with `@` asks for is not looked at, and names of emoji stay as they are.
-/

import MachineCatalog.Text.Digit
import MachineCatalog.Text.Lowercase

namespace MachineCatalog
namespace Markup

/-- A text in a style. -/
def styled (style text : Text) : Text := "[" ++ style ++ "]" ++ text ++ "[/" ++ style ++ "]"

/-- Whether a tag can start with the character. -/
def startsTag (c : CodePoint) : Bool :=
  (0x61 ≤ c.val && c.val ≤ 0x7A) || c = '#' || c = '/' || c = '@'

/-- Whether the character is not the one that ends a tag. -/
def isInside (c : CodePoint) : Bool := c ≠ ']'

/-- The tag behind an opening bracket and what stands behind that tag, where `piece`
goes on to the next opening bracket. -/
def tag? : Text → Option (Text × Text)
  | [] => none
  | c :: rest =>
    match rest.dropWhile isInside with
    | [] => none
    | _ :: behind => if startsTag c then some (c :: rest.takeWhile isInside, behind) else none

/-- The name of a style, however it is spelt. -/
def styleName (name : Text) : Text := Text.lowercase (Text.trimmed name)

/-- The open styles behind a tag, the last one first; none when the tag closes nothing.
Behind `=` stands what a tag says of its style. -/
def follow? (opened : List Text) (tag : Text) : Option (List Text) :=
  let name : Text := tag.takeWhile fun (c : CodePoint) => c ≠ '='
  if name.startsWith "/" then
    let style := styleName (name.drop 1)
    if style.isEmpty then opened.tail?
    else if opened.contains style then some (opened.erase style)
    else none
  else some (styleName name :: opened)

/-- A text without tags as it is shown. -/
def plain : Text → Text
  | [] => []
  | c :: rest =>
    if c = '\\' && rest.head? = some (CodePoint.ofChar '[') then plain rest else c :: plain rest

/-- How many backslashes a text ends in. -/
def slashCount (t : Text) : Nat :=
  let isSlash (c : CodePoint) : Bool := c = '\\'
  (t.reverse.takeWhile isSlash).length

/-- The text in front of a tag as it is shown, which is a text itself behind an odd number
of backslashes. -/
def front (before : Text) : Text :=
  plain (before.take (before.length - slashCount before)) ++
    List.replicate (slashCount before / 2) (CodePoint.ofChar '\\')

/-- What is shown of the text `before`, which has no tag, and of the pieces behind it, each
of which has an opening bracket before it. -/
def showPieces? (opened : List Text) (before : Text) : List Text → Option Text
  | [] => some (plain before)
  | piece :: pieces =>
    match tag? piece with
    | none => showPieces? opened (before ++ "[" ++ piece) pieces
    | some (tag, behind) =>
      if slashCount before % 2 = 1 then
        (showPieces? opened behind pieces).map fun shown =>
          front before ++ "[" ++ tag ++ "]" ++ shown
      else do
        let opened ← follow? opened tag
        let shown ← showPieces? opened behind pieces
        return front before ++ shown

/-- What a text with marks is shown as; none when a tag closes nothing. -/
def show? (t : Text) : Option Text :=
  match Text.splitAt (CodePoint.ofChar '[') t with
  | [] => some []
  | first :: pieces => showPieces? [] first pieces

end Markup
end MachineCatalog
