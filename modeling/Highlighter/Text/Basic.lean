import Highlighter.Text.Space

/-!
# Texts and byte offsets

A text is a list of characters, and offsets inside a line count the bytes of its UTF-8 form. This
module relates the two measures: `byteLength` is the size of a text, `charOffset` turns a number of
characters into an offset, and `splitAt?` cuts a text at an offset and fails when the offset is past
the end or inside a character. Searching for a literal gives the offset of its first occurrence.
-/

namespace Highlighter

/-- A text: its characters in order. -/
abbrev Text := List Char

namespace Text

/-- The number of bytes of the UTF-8 form. -/
def byteLength : Text → Nat
  | [] => 0
  | c :: cs => c.utf8Size + byteLength cs

/-- The parts before and after a byte offset. There are none when the offset lies past the end or
inside a character. -/
def splitAt? : Nat → Text → Option (Text × Text)
  | 0, cs => some ([], cs)
  | _ + 1, [] => none
  | n + 1, c :: cs =>
      if c.utf8Size ≤ n + 1 then
        (splitAt? (n + 1 - c.utf8Size) cs).map fun (before, after) => (c :: before, after)
      else none

/-- Whether a byte offset lies between two characters or at an end of the text. -/
def isBoundary (offset : Nat) (text : Text) : Bool :=
  (text.splitAt? offset).isSome

/-- The part between two byte offsets, if both are boundaries in order. -/
def slice? (start stop : Nat) (text : Text) : Option Text := do
  let (_, after) ← text.splitAt? start
  if start ≤ stop then
    let (between, _) ← Text.splitAt? (stop - start) after
    pure between
  else none

/-- The byte offset of the character with the given index, or of the end of the text. -/
def charOffset (index : Nat) (text : Text) : Nat :=
  byteLength (text.take index)

/-- The number of bytes taken by `count` characters from a byte offset on. An offset past the end
counts as the end; one inside a character has no answer. -/
def spanBytes? (start count : Nat) (text : Text) : Option Nat :=
  (text.splitAt? (min start text.byteLength)).map fun (_, after) => byteLength (after.take count)

/-- The byte offset that a one-based column points at, and the line start without one. -/
def columnOffset (column : Option Nat) (text : Text) : Nat :=
  match column with
  | some column => text.charOffset (column - 1)
  | none => 0

/-- A character of an identifier: an ASCII letter, an ASCII digit or the underscore. -/
def isIdentChar (c : Char) : Bool :=
  c.isAlphanum || c == '_'

/-- Whether the part between two byte offsets touches no identifier character on either side. There
is no answer when one of the offsets is not a boundary. -/
def isWholeWord? (start stop : Nat) (text : Text) : Option Bool := do
  let (before, _) ← text.splitAt? start
  let (_, after) ← text.splitAt? stop
  pure (!before.getLast?.any isIdentChar && !after.head?.any isIdentChar)

/-- The byte offset of the first occurrence of a literal. The empty literal occurs at the start. -/
def find? (text literal : Text) : Option Nat :=
  match text with
  | [] => if literal.isEmpty then some 0 else none
  | c :: cs =>
      if literal.isPrefixOf (c :: cs) then some 0
      else (find? cs literal).map (c.utf8Size + ·)

/-- Whether a literal occurs in the text. -/
def contains (text literal : Text) : Bool :=
  (find? text literal).isSome

/-- The text without the white space at its end. -/
def trimEnd (text : Text) : Text :=
  (text.reverse.dropWhile isSpace).reverse

/-- Whether the text holds nothing but white space. -/
def isBlank (text : Text) : Bool :=
  text.all isSpace

/-- The decimal digits of a natural number. -/
def ofNat (n : Nat) : Text :=
  Nat.toDigits 10 n

end Text

end Highlighter
