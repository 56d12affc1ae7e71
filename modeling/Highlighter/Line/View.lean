import Highlighter.Span.Basic
import Highlighter.Tree.Basic

/-!
# Comments and literals on a line

What a single line shows by itself, without a tree. A comment starts at the first `//` outside the
quoted literals of the line; a quote that is never closed hides no comment. The literals are those
that start before the comment. What lies outside both is code.
-/

namespace Highlighter

/-- Whether a character opens a quoted literal. -/
def isQuote (c : Char) : Bool :=
  c == '"' || c == '\''

/-- How a walk over a line ends: at a comment marker outside literals, with a quote still open, or
with neither. -/
inductive LineScan where
  | marker (offset : Nat)
  | openQuote (offset : Nat)
  | clear
  deriving DecidableEq, Repr

/-- Walk over a line from a byte offset on. `quote` is the quote that is open, with its offset.
Inside a literal a backslash takes the next character with it. -/
def LineScan.ofText (offset : Nat) (quote : Option (Char × Nat)) : Text → LineScan
  | [] =>
      match quote with
      | some (_, opened) => .openQuote opened
      | none => .clear
  | c :: cs =>
      let next := offset + c.utf8Size
      match quote with
      | some (mark, opened) =>
          if c = '\\' then
            match cs with
            | [] => .openQuote opened
            | d :: ds => LineScan.ofText (next + d.utf8Size) quote ds
          else if c = mark then LineScan.ofText next none cs
          else LineScan.ofText next quote cs
      | none =>
          if isQuote c then LineScan.ofText next (some (c, offset)) cs
          else if c = '/' && cs.head? = some '/' then .marker offset
          else LineScan.ofText next none cs

/-- The byte offset of the comment on a line. After a quote that stays open it is the first
marker. -/
def commentStart? (line : Text) : Option Nat :=
  match LineScan.ofText 0 none line with
  | .marker offset => some offset
  | .openQuote offset => do
      let (_, rest) ← line.splitAt? (offset + 1)
      (Text.find? rest "//".toList).map (offset + 1 + ·)
  | .clear => none

/-- The comment on a line: its byte offset and its kind. -/
def findComment? (line : Text) : Option (Nat × CommentKind) := do
  let start ← commentStart? line
  let (_, rest) ← line.splitAt? start
  pure (start, CommentKind.ofText rest)

/-- The category of comments of a kind. -/
def CommentKind.category (kind : CommentKind) : Category :=
  if kind.isDoc then .docComment else .comment

/-- The span of the comment on a line, from its marker to the end of the line. -/
def commentSpan? (line : Text) : Option Span :=
  (findComment? line).map fun (start, kind) => ⟨start, line.byteLength - start, kind.category⟩

/-- The length of a quoted literal after its opening quote, if it is closed. A backslash takes the
next character with it, which may not be a line feed. -/
def literalLength? (quote : Char) : Text → Option Nat
  | [] => none
  | c :: cs =>
      if c = quote then some 1
      else if c = '\\' then
        match cs with
        | [] => none
        | d :: ds => if d = '\n' then none else (literalLength? quote ds).map (· + 2)
      else (literalLength? quote cs).map (· + 1)

/-- A closed quoted literal. -/
def quotedLiteral : Pattern := fun _ rest =>
  match rest with
  | [] => none
  | c :: cs => if isQuote c then (literalLength? c cs).map (· + 1) else none

/-- A line with its literals and the offset at which its code ends. -/
structure LineView where
  text : Text
  literals : List Range
  codeEnd : Nat

namespace LineView

/-- What a line shows. -/
def ofText (line : Text) : LineView :=
  let codeEnd := (commentStart? line).getD line.byteLength
  { text := line
    literals := (line.findAll quotedLiteral).filter (·.start < codeEnd)
    codeEnd }

/-- Whether an offset lies in code: before the comment and outside the literals. -/
def inCode (view : LineView) (offset : Nat) : Bool :=
  offset < view.codeEnd && !view.literals.any (·.contains offset)

/-- The occurrences of a character in code. -/
def codeOccurrences (view : LineView) (c : Char) : List Range :=
  (view.text.occurrencesOf c).filter fun range => view.inCode range.start

end LineView

end Highlighter
