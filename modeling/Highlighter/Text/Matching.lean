import Highlighter.Text.Basic
import Highlighter.Text.WordChar

/-!
# Matching patterns in a text

A pattern looks at a place in a text: the character before it, if any, and all that follows.
`findAll` walks a text from left to right and gives the byte ranges of the matches, none overlapping
an earlier one. `firstMatch` gives what a pattern reads at the first place where it matches.
-/

namespace Highlighter

/-- A range of byte offsets, without its end. -/
structure Range where
  start : Nat
  stop : Nat
  deriving DecidableEq, Repr

namespace Range

/-- The number of bytes in the range. -/
def length (range : Range) : Nat :=
  range.stop - range.start

/-- Whether an offset lies in the range. -/
def contains (range : Range) (offset : Nat) : Bool :=
  range.start ≤ offset && offset < range.stop

end Range

/-- A pattern: at a place with the given character before it and the given text after it, the number
of characters it matches. -/
abbrev Pattern := Option Char → Text → Option Nat

namespace Text

/-- The matches of a pattern from a place on. The place has byte offset `offset` and the character
`before` before it; the first `skip` characters belong to a match already found. A match of no
characters counts as none. -/
def matchesFrom (pattern : Pattern) (offset : Nat) (before : Option Char) (skip : Nat) :
    Text → List Range
  | [] => []
  | c :: cs =>
      match skip with
      | skip + 1 => matchesFrom pattern (offset + c.utf8Size) (some c) skip cs
      | 0 =>
          match pattern before (c :: cs) with
          | some (count + 1) =>
              ⟨offset, offset + byteLength ((c :: cs).take (count + 1))⟩ ::
                matchesFrom pattern (offset + c.utf8Size) (some c) count cs
          | _ => matchesFrom pattern (offset + c.utf8Size) (some c) 0 cs

/-- The byte ranges of all matches of a pattern, from left to right and none overlapping. -/
def findAll (pattern : Pattern) (text : Text) : List Range :=
  matchesFrom pattern 0 none 0 text

/-- The byte ranges of the occurrences of a literal, from left to right and none overlapping. -/
def occurrences (text literal : Text) : List Range :=
  text.findAll fun _ rest => if literal.isPrefixOf rest then some literal.length else none

/-- The byte ranges of the occurrences of a character. -/
def occurrencesOf (text : Text) (c : Char) : List Range :=
  text.occurrences [c]

/-- A word between two word boundaries. -/
def wholeWord (word : Text) : Pattern := fun before rest =>
  if word.isPrefixOf rest && isWordBoundary before rest.head? &&
      isWordBoundary word.getLast? (rest.drop word.length).head? then
    some word.length
  else none

/-- What a reader gets at the first place where it succeeds. -/
def firstMatch {α : Type} (read : Option Char → Text → Option α) (before : Option Char) :
    Text → Option α
  | [] => read before []
  | c :: cs => read before (c :: cs) <|> firstMatch read (some c) cs

end Text

end Highlighter
