import Highlighter.Text.Basic

/-!
# Lines

Two ways to cut a text into lines. `Text.lines` follows the line feeds alone, as the lexer counts
them, and strips a carriage return from the end of each line. `Text.brokenLines` follows every hard
line break (line feed, carriage return, the pair of them, vertical tab, form feed, next line, line
separator, paragraph separator) and keeps the break at the end of its line; `Text.chomp` strips a
final line feed or pair. Both cuts open one more line after the last break.
-/

namespace Highlighter.Text

/-- The part before the first line feed, and the parts between and after the line feeds. -/
def splitFeeds : Text → Text × List Text
  | [] => ([], [])
  | c :: cs =>
      let (line, others) := splitFeeds cs
      if c = '\n' then ([], line :: others) else (c :: line, others)

/-- A line without one carriage return at its end. -/
def stripReturn (line : Text) : Text :=
  if line.getLast? = some '\r' then line.dropLast else line

/-- The lines of a text by its line feeds. -/
def lines (text : Text) : List Text :=
  let (line, others) := splitFeeds text
  (line :: others).map stripReturn

/-- A character that ends a line by itself. -/
def isLineBreak (c : Char) : Bool :=
  c == '\n' || c == '\r' || c == '\x0b' || c == '\x0c' || c == '\u0085' ||
    c == '\u2028' || c == '\u2029'

/-- The part up to and including the first hard line break, and the further such parts. A carriage
return directly before a line feed breaks nothing: the pair ends at the line feed. -/
def splitBreaks : Text → Text × List Text
  | [] => ([], [])
  | c :: cs =>
      let (line, others) := splitBreaks cs
      if isLineBreak c && !(c == '\r' && cs.head? == some '\n') then ([c], line :: others)
      else (c :: line, others)

/-- The lines of a text by its hard line breaks, each with the break that ends it. -/
def brokenLines (text : Text) : List Text :=
  let (line, others) := splitBreaks text
  line :: others

/-- A line without the line feed, or carriage return and line feed, at its end. -/
def chomp (line : Text) : Text :=
  if line.getLast? = some '\n' then stripReturn line.dropLast else line

end Highlighter.Text
