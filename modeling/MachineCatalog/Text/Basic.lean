/-
# Texts

A text is a sequence of code points.  A code point is a character, or one half
of a surrogate pair that stands alone: escapes can write such a half, though no
file in UTF-8 can hold it.
-/

namespace MachineCatalog

/-- A code point: a character, or half of a surrogate pair. -/
abbrev CodePoint := Fin 0x110000

/-- A text. -/
abbrev Text := List CodePoint

namespace CodePoint

/-- Every character has a code point. -/
theorem toNat_lt (c : Char) : c.toNat < 0x110000 := by
  rcases c.valid with h | h
  · exact Nat.lt_trans h (by decide)
  · exact h.2

/-- The code point of a character. -/
def ofChar (c : Char) : CodePoint := ⟨c.toNat, toNat_lt c⟩

instance : Coe Char CodePoint := ⟨ofChar⟩

/-- The code point with the given number. -/
def ofNat (n : Nat) : CodePoint := Fin.ofNat 0x110000 n

/-- Whether the code point is half of a surrogate pair. -/
def isHalf (c : CodePoint) : Bool := 0xD800 ≤ c.val && c.val < 0xE000

/-- The character of a code point; the replacement character stands for a half. -/
def toChar (c : CodePoint) : Char := if c.isHalf then Char.ofNat 0xFFFD else Char.ofNat c.val

end CodePoint

namespace Text

/-- The text of a string. -/
def ofString (s : String) : Text := s.toList.map CodePoint.ofChar

instance : Coe String Text := ⟨ofString⟩

/-- The text of some characters. -/
def ofChars (cs : List Char) : Text := cs.map CodePoint.ofChar

/-- The characters of a text, with the replacement character for a half of a pair. -/
def chars (t : Text) : List Char := t.map CodePoint.toChar

/-- The string of a text without halves of pairs. -/
def toString? (t : Text) : Option String :=
  if t.any CodePoint.isHalf then none else some (String.ofList t.chars)

/-- How many octets UTF-8 takes for a text, three for half of a pair. -/
def octetCount (t : Text) : Nat :=
  t.foldl (fun n c =>
    n + if c.val < 0x80 then 1 else if c.val < 0x800 then 2 else if c.val < 0x10000 then 3 else 4) 0

/-- The octets of a text in UTF-8, which cannot write halves of pairs. -/
def octets? (t : Text) : Option ByteArray := t.toString?.map String.toUTF8

/-- Whether the second text ends the first. -/
def endsWith (t ending : Text) : Bool := ending.isSuffixOf t

/-- Whether the second text starts the first. -/
def startsWith (t start : Text) : Bool := start.isPrefixOf t

/-- Some blanks. -/
def blanks (n : Nat) : Text := List.replicate n ' '

/-- The parts of a sequence between the occurrences of a separator. -/
def splitAt {α : Type} [BEq α] (separator : α) : List α → List (List α)
  | [] => [[]]
  | c :: rest =>
    if c == separator then [] :: splitAt separator rest
    else
      match splitAt separator rest with
      | [] => [[c]]
      | s :: more => (c :: s) :: more

end Text
end MachineCatalog
