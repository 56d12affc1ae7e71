import Highlighter.Tree.Basic

/-!
# Outcomes of a parse

What the highlighter asks of a parser: from a text, a tree, a tree of a valid first part with the
failure that ended it, a failure alone, or nothing. Any function from texts to outcomes is a parser
here.
-/

namespace Highlighter

/-- A failure as a parser reports it. Lines and columns count from one, and each part but the
message may be missing. -/
structure ParseError where
  message : Text
  line : Option Nat := none
  column : Option Nat := none
  token : Option Text := none
  deriving DecidableEq, Repr

/-- The result of parsing a text. -/
inductive Outcome where
  | parsed (tree : Body)
  | partialTree (tree : Body) (error : ParseError)
  | failed (error : ParseError)
  | empty

/-- A parser. -/
abbrev Parser := Text → Outcome

namespace Outcome

/-- The tree of an outcome, whole or partial. -/
def tree? : Outcome → Option Body
  | .parsed tree => some tree
  | .partialTree tree _ => some tree
  | .failed _ => none
  | .empty => none

/-- The failure of an outcome. -/
def error? : Outcome → Option ParseError
  | .parsed _ => none
  | .partialTree _ error => some error
  | .failed error => some error
  | .empty => none

/-- The first line that a partial tree does not vouch for. Without one the tree, if any, covers
every line. -/
def limit? : Outcome → Option Nat
  | .partialTree _ error => some (error.line.getD 1)
  | _ => none

/-- What an outcome is called in a report. -/
def name : Outcome → String
  | .parsed _ => "parsed"
  | .partialTree _ _ => "partial"
  | .failed _ => "failed"
  | .empty => "empty"

end Outcome

end Highlighter
