import Highlighter.ErrorRecord.Basic
import Highlighter.Text.Lines

/-!
# Recovering a tree from the text before a failure

When a parser fails, the text before the failure may still have a tree, which then vouches for the
lines above. The first attempt keeps the failing line up to the error's column, and the second keeps
whole lines only. Blank attempts are not made.
-/

namespace Highlighter.Recovery

/-- Lines joined by line feeds. -/
def joinLines : List Text → Text
  | [] => []
  | [line] => line
  | line :: rest => line ++ '\n' :: joinLines rest

/-- The texts to try after a failure at the place of a record. -/
def attempts (text : Text) (record : ErrorRecord) : List Text :=
  let lines := text.lines
  let before := joinLines (lines.take (record.line - 1))
  let cut := ((lines[record.line - 1]?).map (·.take (record.column - 1))).filter (!Text.isBlank ·)
  let through := cut.map fun cut => if before.isEmpty then cut else before ++ '\n' :: cut
  (through.toList ++ [before]).filter (!Text.isBlank ·)

/-- The outcome after a failure: the tree of the first attempt that has one, with the failure at its
located place, or else the failure alone. -/
def recover (parser : Parser) (text : Text) (error : ParseError) : Outcome :=
  let record := ErrorRecord.locate error
  match (attempts text record).findSome? fun attempt => (parser attempt).tree? with
  | some tree =>
      .partialTree tree { error with line := some record.line, column := some record.column }
  | none => .failed error

/-- The texts that are tried until one of them has a tree. -/
def tried (parser : Parser) : List Text → List Text
  | [] => []
  | attempt :: rest =>
      attempt :: if (parser attempt).tree?.isSome then [] else tried parser rest

/-- The outcome of a text. A blank text is empty whatever the parser says, and a failure is
recovered from as far as possible. -/
def parse (parser : Parser) (text : Text) : Outcome :=
  if text.isBlank then .empty
  else
    match parser text with
    | .failed error => recover parser text error
    | outcome => outcome

/-- The texts handed to the parser for the outcome of a text, in order. -/
def consulted (parser : Parser) (text : Text) : List Text :=
  if text.isBlank then []
  else
    match parser text with
    | .failed error => text :: tried parser (attempts text (ErrorRecord.locate error))
    | _ => [text]

end Highlighter.Recovery
