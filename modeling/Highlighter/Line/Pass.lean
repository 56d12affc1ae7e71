import Highlighter.ErrorRecord.Basic
import Highlighter.Line.TreePaint

/-!
# Highlighting a line

A pass paints lines against one outcome and its errors. The comment comes first, then the tree where
it vouches for the line and the patterns otherwise, and the errors lie over both. A partial tree
vouches for the lines before its failure.
-/

namespace Highlighter

/-- What a pass paints from: an outcome, the errors to show, and whether to show them. -/
structure Pass where
  outcome : Outcome
  errors : List ErrorRecord
  showErrors : Bool

namespace Pass

/-- Whether the tree of the outcome vouches for a line. -/
def covers (pass : Pass) (line : Nat) : Bool :=
  pass.outcome.tree?.isSome && pass.outcome.limit?.all (line < ·)

/-- Paint the tokens of a line. -/
def paintTokens (pass : Pass) (line : Nat) (text : Text) : Buffer :=
  let buffer := (Buffer.ofText text).paintComment text
  match pass.outcome.tree? with
  | some tree =>
      if pass.covers line then buffer.paintTree tree line text else buffer.paintPatterns text
  | none => buffer.paintPatterns text

/-- Lay the errors of a line over it. -/
def paintErrors (pass : Pass) (line : Nat) (text : Text) (buffer : Buffer) : Buffer :=
  if pass.showErrors then
    (pass.errors.filter (·.line = line)).foldl
      (fun buffer record =>
        let (start, len) := record.resolve text
        buffer.overlay start len)
      buffer
  else buffer

/-- The paint of the line with a given number and text. -/
def highlightLine (pass : Pass) (line : Nat) (text : Text) : LineHighlight :=
  let buffer := pass.paintErrors line text (pass.paintTokens line text)
  { spans := buffer.spans
    state := if buffer.hasErrors then .hasError else .normal }

end Pass

end Highlighter
