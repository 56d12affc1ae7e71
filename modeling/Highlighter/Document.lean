import Highlighter.Span.Basic
import Highlighter.Text.Lines

/-!
# Documents

A document is a text under edit, with a counter of its edits and the paint last given to its lines.
Edits count characters and are cut to the text; each reports where it happened and how many
characters went and came. Lines are numbered from one and follow the hard line breaks. An edit keeps
the paint of the lines that remain.
-/

namespace Highlighter

/-- What an edit did: at a character index, some characters were removed and others added. -/
structure Edit where
  position : Nat
  removed : Nat
  added : Nat
  deriving DecidableEq, Repr

/-- A text under edit. The revision counts the edits modulo `2 ^ 64`, and `paint` holds the paint by
line. -/
structure Document where
  text : Text := []
  revision : UInt64 := 0
  paint : List (Nat × LineHighlight) := []

namespace Document

/-- A document that has not been edited. -/
def ofText (text : Text) : Document :=
  { text }

/-- The lines without their line feeds. -/
def lines (doc : Document) : List Text :=
  doc.text.brokenLines.map Text.chomp

/-- The number of lines. -/
def lineCount (doc : Document) : Nat :=
  doc.text.brokenLines.length

/-- The line with an index counted from zero. -/
def lineAt? (doc : Document) (index : Nat) : Option Text :=
  doc.lines[index]?

/-- The line with a number counted from one. -/
def line? (doc : Document) (line : Nat) : Option Text :=
  if line = 0 then none else doc.lineAt? (line - 1)

/-- The document with another text in the place of its own. Paint of lines that are gone is
dropped. -/
def retext (doc : Document) (text : Text) : Document :=
  let count := text.brokenLines.length
  { text
    revision := doc.revision + 1
    paint := doc.paint.filter fun (line, _) => line ≤ count }

/-- Insert a text at a character index. -/
def insert (doc : Document) (index : Nat) (added : Text) : Document × Edit :=
  let position := min index doc.text.length
  (doc.retext (doc.text.take position ++ added ++ doc.text.drop position),
    ⟨position, 0, added.length⟩)

/-- Remove the characters between two indices. -/
def remove (doc : Document) (first last : Nat) : Document × Edit :=
  let start := min first doc.text.length
  let stop := max start (min last doc.text.length)
  (doc.retext (doc.text.take start ++ doc.text.drop stop), ⟨start, stop - start, 0⟩)

/-- Replace the whole text. -/
def setText (doc : Document) (text : Text) : Document × Edit :=
  (doc.retext text, ⟨0, doc.text.length, text.length⟩)

/-- The paint last given to a line. -/
def highlight? (doc : Document) (line : Nat) : Option LineHighlight :=
  doc.paint.lookup line

/-- The paint of a line, which is empty when it was never painted. -/
def highlight (doc : Document) (line : Nat) : LineHighlight :=
  (doc.highlight? line).getD {}

/-- A list of paint by line with new paint for one of them. -/
def setPaint (line : Nat) (highlight : LineHighlight) :
    List (Nat × LineHighlight) → List (Nat × LineHighlight)
  | [] => [(line, highlight)]
  | (other, old) :: rest =>
      if other = line then (line, highlight) :: rest
      else (other, old) :: setPaint line highlight rest

/-- The document with new paint for a line. -/
def setHighlight (doc : Document) (line : Nat) (highlight : LineHighlight) : Document :=
  { doc with paint := setPaint line highlight doc.paint }

/-- Give spans to a line, whose state stays. -/
def applySpans (doc : Document) (line : Nat) (spans : List Span) : Document :=
  doc.setHighlight line { doc.highlight line with spans }

/-- Give a state to a line, whose spans stay. -/
def setState (doc : Document) (line : Nat) (state : LineState) : Document :=
  doc.setHighlight line { doc.highlight line with state }

/-- Give paint to lines in order. -/
def applyPaint (doc : Document) (paint : List (Nat × LineHighlight)) : Document :=
  paint.foldl (fun doc (line, highlight) => doc.setHighlight line highlight) doc

end Document

end Highlighter
