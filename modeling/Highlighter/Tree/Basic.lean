import Highlighter.Binary64
import Highlighter.Lexeme.Basic

/-!
# Documents as trees

What a parser hands over: entries, values, containers and comments, each with its place in the
source. A place always has a line; its column is a hint that a parser may leave out. A document is a
body, that is an object without its braces.
-/

namespace Highlighter

/-- A place in the source as a parser knows it. -/
structure SourcePos where
  line : Nat
  column : Option Nat
  deriving DecidableEq, Repr

/-- An exact place. -/
def Position.toSource (pos : Position) : SourcePos :=
  ⟨pos.line, some pos.column⟩

/-- The kinds of comments, told apart by their markers. -/
inductive CommentKind where
  /-- Marked `//`. -/
  | plain
  /-- Marked `///`; it documents the entry that follows. -/
  | leadingDoc
  /-- Marked `//!`; it documents the container around it. -/
  | innerDoc
  deriving DecidableEq, Repr

namespace CommentKind

/-- The marker of a kind. -/
def marker : CommentKind → Text
  | .plain => "//".toList
  | .leadingDoc => "///".toList
  | .innerDoc => "//!".toList

/-- The kind of a comment by how its text starts. -/
def ofText (text : Text) : CommentKind :=
  if innerDoc.marker.isPrefixOf text then .innerDoc
  else if leadingDoc.marker.isPrefixOf text then .leadingDoc
  else .plain

/-- Whether comments of this kind are documentation. -/
def isDoc (kind : CommentKind) : Bool :=
  kind ≠ .plain

end CommentKind

/-- A comment with its marker. -/
structure Comment where
  text : Text
  kind : CommentKind
  pos : SourcePos
  deriving DecidableEq, Repr

/-- The comment with a given text; its kind follows from the marker. -/
def Comment.ofText (text : Text) (pos : SourcePos) : Comment :=
  ⟨text, CommentKind.ofText text, pos⟩

/-- A scalar value. -/
inductive Scalar where
  | string (value : Text)
  | number (value : Binary64)
  | bool (value : Bool)
  | null
  deriving DecidableEq, Repr

mutual

/-- A key with its value. `leading` are the comments on the lines above it, and `trailing` is the
comment after the value. -/
structure Entry where
  key : Text
  value : Node
  leading : List Comment := []
  trailing : Option Comment := none
  pos : SourcePos

/-- Entries in source order with the comments of their container: `innerDoc` are its inner
documentation comments and `trailing` the comments after the last entry. -/
structure Body where
  entries : List Entry := []
  innerDoc : List Comment := []
  trailing : List Comment := []

/-- The elements of a list with the comments of the list. A comment between elements is an
element. -/
structure Items where
  elements : List Node := []
  innerDoc : List Comment := []
  trailing : List Comment := []

/-- The nodes of a tree. The place of a container is that of its opening delimiter, and `close` is
that of its closing delimiter when the parser knows it. -/
inductive Node where
  | entry (entry : Entry)
  | scalar (value : Scalar) (pos : SourcePos)
  | object (body : Body) (pos : SourcePos) (close : Option SourcePos)
  | list (items : Items) (pos : SourcePos) (close : Option SourcePos)
  | comment (comment : Comment)

end

/-- The place of a node. -/
def Node.pos : Node → SourcePos
  | .entry e => e.pos
  | .scalar _ pos => pos
  | .object _ pos _ => pos
  | .list _ pos _ => pos
  | .comment c => c.pos

namespace Body

/-- A body with nothing in it. -/
def empty : Body :=
  {}

/-- Whether a body has neither entries nor comments. -/
def isEmpty (body : Body) : Bool :=
  body.entries.isEmpty && body.innerDoc.isEmpty && body.trailing.isEmpty

/-- Whether a body has an entry with this key. -/
def hasKey (body : Body) (key : Text) : Bool :=
  body.entries.any (·.key == key)

/-- The body with one more entry. -/
def push (body : Body) (entry : Entry) : Body :=
  { body with entries := body.entries ++ [entry] }

/-- The body with an entry put under its key: in the place of an earlier entry with the same key, or
at the end. -/
def insert (body : Body) (entry : Entry) : Body :=
  if body.hasKey entry.key then
    { body with entries := body.entries.map fun old => if old.key == entry.key then entry else old }
  else body.push entry

end Body

end Highlighter
