import Highlighter.Text.Matching

/-!
# Spans

The paint of a line is a list of spans: byte ranges of the line with a category each. Token spans
come first, in order and apart from one another, and error spans lie over them.
-/

namespace Highlighter

/-- What a span is painted as. -/
inductive Category where
  | key
  | operator
  | string
  | number
  | boolean
  | null
  | symbol
  | comment
  | docComment
  | error
  deriving DecidableEq, Repr

namespace Category

/-- All categories in order. -/
def all : List Category :=
  [.key, .operator, .string, .number, .boolean, .null, .symbol, .comment, .docComment, .error]

/-- The name of a category in a palette. -/
def role : Category → String
  | .key => "key"
  | .operator => "operator"
  | .string => "string"
  | .number => "number"
  | .boolean => "boolean"
  | .null => "null"
  | .symbol => "symbol"
  | .comment => "comment"
  | .docComment => "docComment"
  | .error => "error"

/-- The category with a given name. -/
def ofRole? (name : String) : Option Category :=
  all.find? (·.role == name)

/-- Whether a category is one of comments. -/
def isComment : Category → Bool
  | .comment => true
  | .docComment => true
  | _ => false

end Category

/-- A painted part of a line: `len` bytes from `start` on. -/
structure Span where
  start : Nat
  len : Nat
  category : Category
  deriving DecidableEq, Repr

namespace Span

/-- The offset just past the span. -/
def stop (span : Span) : Nat :=
  span.start + span.len

/-- Whether an offset lies in the span. -/
def covers (span : Span) (offset : Nat) : Bool :=
  span.start ≤ offset && offset < span.stop

/-- The text under the span, if it starts and ends between characters. -/
def text? (span : Span) (line : Text) : Option Text :=
  line.slice? span.start span.stop

/-- The span of a range. -/
def ofRange (range : Range) (category : Category) : Span :=
  ⟨range.start, range.length, category⟩

end Span

/-- Whether a line shows an error. -/
inductive LineState where
  | normal
  | hasError
  deriving DecidableEq, Repr

/-- The number that stands for a line's state. -/
def LineState.block : LineState → Nat
  | .normal => 0
  | .hasError => 1

/-- The paint of a line. -/
structure LineHighlight where
  spans : List Span := []
  state : LineState := .normal
  deriving DecidableEq, Repr

namespace LineHighlight

/-- The category of the first token span that covers an offset. Token spans are in order, so the
search ends at the first one that starts past the offset. -/
def categoryIn (offset : Nat) : List Span → Option Category
  | [] => none
  | span :: rest =>
      if span.category = .error then categoryIn offset rest
      else if span.covers offset then some span.category
      else if offset < span.start then none
      else categoryIn offset rest

/-- The category of the token at an offset, whatever error lies over it. -/
def categoryAt (highlight : LineHighlight) (offset : Nat) : Option Category :=
  categoryIn offset highlight.spans

/-- The spans of one category. -/
def spansOf (highlight : LineHighlight) (category : Category) : List Span :=
  highlight.spans.filter (·.category = category)

/-- The error spans. -/
def errors (highlight : LineHighlight) : List Span :=
  highlight.spansOf .error

end LineHighlight

end Highlighter
