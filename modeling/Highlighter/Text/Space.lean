import Highlighter.Text.Ranges

/-!
# White space

The characters with the property White_Space: the ASCII blanks and line ends, the next-line control,
the no-break, Ogham and ideographic spaces, the typographic spaces and the two Unicode separators.
-/

namespace Highlighter

/-- The white space characters, as ranges of code points. -/
def spaceRanges : List (Nat × Nat) :=
  [(0x9, 0xd), (0x20, 0x20), (0x85, 0x85), (0xa0, 0xa0), (0x1680, 0x1680), (0x2000, 0x200a),
   (0x2028, 0x2029), (0x202f, 0x202f), (0x205f, 0x205f), (0x3000, 0x3000)]

/-- A white space character. -/
def isSpace (c : Char) : Bool :=
  inRanges spaceRanges c

end Highlighter
