import Highlighter.Line.Patterns

/-!
# Painting a line from a tree

A tree knows on which line each of its parts stands, and at best in which column; where a part is on
its line is found again in the text. Among the places that look like the part, the first free one at
or after its column is claimed, or else the first free one on the line. Delimiters, commas and
equals signs are looked for in code only.
-/

namespace Highlighter

/-- A line that is being painted: its number, counted from one, and what it shows. -/
structure Canvas where
  line : Nat
  view : LineView

namespace Canvas

/-- The canvas for the line with a given number. -/
def ofText (line : Nat) (text : Text) : Canvas :=
  ⟨line, LineView.ofText text⟩

/-- Whether a place is on this line. -/
def has (canvas : Canvas) (pos : SourcePos) : Bool :=
  pos.line == canvas.line

/-- The byte offset that a place points at. -/
def offsetOf (canvas : Canvas) (pos : SourcePos) : Nat :=
  canvas.view.text.columnOffset pos.column

/-- Claim the first free range at or after an offset, or else the first free one before it. -/
def claimNear (start : Nat) (category : Category) (ranges : List Range) (buffer : Buffer) :
    Option (Range × Buffer) :=
  buffer.claimFirst? category
    (ranges.filter (start ≤ ·.start) ++ ranges.filter (·.start < start))

/-- Claim as `claimNear` does, if any range is free. -/
def paintNear (start : Nat) (category : Category) (ranges : List Range) (buffer : Buffer) :
    Buffer :=
  match claimNear start category ranges buffer with
  | some (_, claimed) => claimed
  | none => buffer

/-- The places where a key may stand bare: whole words in code. -/
def bareKeys (canvas : Canvas) (key : Text) : List Range :=
  (canvas.view.text.occurrences key).filter fun range =>
    (canvas.view.text.isWholeWord? range.start range.stop).getD false &&
      canvas.view.inCode range.start

/-- The places where a key may stand in quotes: the literals with exactly the key inside. -/
def quotedKeys (canvas : Canvas) (key : Text) : List Range :=
  canvas.view.literals.filter fun range =>
    canvas.view.text.slice? (range.start + 1) (range.stop - 1) == some key

/-- Paint a key. The result has the offset just past it, or the offset of its column when no place
was free. -/
def paintKey (canvas : Canvas) (key : Text) (pos : SourcePos) (buffer : Buffer) : Nat × Buffer :=
  let start := canvas.offsetOf pos
  match claimNear start .key (canvas.bareKeys key) buffer with
  | some (range, claimed) => (range.stop, claimed)
  | none =>
      match claimNear start .key (canvas.quotedKeys key) buffer with
      | some (range, claimed) => (range.stop, claimed)
      | none => (min start canvas.view.text.byteLength, buffer)

/-- Paint the first equals sign in code from an offset on. -/
def paintEquals (canvas : Canvas) (start : Nat) (buffer : Buffer) : Buffer :=
  match (canvas.view.codeOccurrences '=').find? (start ≤ ·.start) with
  | some range => buffer.claim ⟨range.start, 1, .operator⟩
  | none => buffer

/-- Paint the key and the equals sign of an entry on this line. -/
def paintEntryHead (canvas : Canvas) (key : Text) (pos : SourcePos) (buffer : Buffer) : Buffer :=
  if canvas.has pos then
    let (stop, painted) := canvas.paintKey key pos buffer
    canvas.paintEquals stop painted
  else buffer

/-- The places where a scalar may stand. Words are taken anywhere before the comment, numbers in
code only. -/
def scalarRanges (canvas : Canvas) (value : Scalar) : List Range :=
  let view := canvas.view
  let words (pattern : Pattern) : List Range :=
    (view.text.findAll pattern).filter (·.start < view.codeEnd)
  match value with
  | .string _ => view.literals
  | .bool true => words (Text.wholeWord "true".toList)
  | .bool false => words (Text.wholeWord "false".toList)
  | .null => words nullWord
  | .number _ => (words numberWord).filter fun range => view.inCode range.start

/-- The category of a scalar. -/
def scalarCategory : Scalar → Category
  | .string _ => .string
  | .bool _ => .boolean
  | .null => .null
  | .number _ => .number

/-- Paint a scalar on this line. -/
def paintScalar (canvas : Canvas) (value : Scalar) (pos : SourcePos) (buffer : Buffer) : Buffer :=
  if canvas.has pos then
    paintNear (canvas.offsetOf pos) (scalarCategory value) (canvas.scalarRanges value) buffer
  else buffer

/-- Paint a delimiter on this line. -/
def paintDelimiter (canvas : Canvas) (c : Char) (pos : SourcePos) (buffer : Buffer) : Buffer :=
  if canvas.has pos then
    paintNear (canvas.offsetOf pos) .symbol (canvas.view.codeOccurrences c) buffer
  else buffer

/-- Paint the closing delimiter of a container on this line. Without its place, it is taken to be
the last such character on the line of the opening one. -/
def paintClosing (canvas : Canvas) (c : Char) (pos : SourcePos) (close : Option SourcePos)
    (buffer : Buffer) : Buffer :=
  match close with
  | some close => canvas.paintDelimiter c close buffer
  | none =>
      if canvas.has pos then
        buffer.claimAll
          ((canvas.view.codeOccurrences c).getLast?.toList.map (Span.ofRange · .symbol))
      else buffer

/-- Paint the commas of this line, if a container opens on it or has a member that starts on it. -/
def paintCommas (canvas : Canvas) (pos : SourcePos) (members : List SourcePos) (buffer : Buffer) :
    Buffer :=
  if canvas.has pos || members.any canvas.has then
    buffer.claimAll ((canvas.view.codeOccurrences ',').map (Span.ofRange · .symbol))
  else buffer

/-- Paint a comment on this line, from where its text stands, or else from where the line's comment
starts, to the end of the line. -/
def paintComment (canvas : Canvas) (comment : Comment) (buffer : Buffer) : Buffer :=
  let text := canvas.view.text
  if canvas.has comment.pos then
    match text.find? comment.text <|> commentStart? text with
    | some start => buffer.claim ⟨start, text.byteLength - start, comment.kind.category⟩
    | none => buffer
  else buffer

/-- Paint comments in order. -/
def paintComments (canvas : Canvas) (comments : List Comment) (buffer : Buffer) : Buffer :=
  comments.foldl (fun buffer comment => canvas.paintComment comment buffer) buffer

mutual

/-- Paint a node. -/
def paintNode (canvas : Canvas) (node : Node) (buffer : Buffer) : Buffer :=
  match node with
  | .entry entry => canvas.paintEntry entry buffer
  | .scalar value pos => canvas.paintScalar value pos buffer
  | .object body pos close =>
      canvas.paintClosing '\x7d' pos close
        (canvas.paintBody body (some pos) (canvas.paintDelimiter '\x7b' pos buffer))
  | .list items pos close =>
      canvas.paintClosing ']' pos close
        (canvas.paintItems items pos (canvas.paintDelimiter '[' pos buffer))
  | .comment comment => canvas.paintComment comment buffer

/-- Paint an entry: the comments above it, its key, its value and the comment after it. -/
def paintEntry (canvas : Canvas) (entry : Entry) (buffer : Buffer) : Buffer :=
  match entry with
  | ⟨key, value, leading, trailing, pos⟩ =>
      canvas.paintComments trailing.toList
        (canvas.paintNode value
          (canvas.paintEntryHead key pos (canvas.paintComments leading buffer)))

/-- Paint a body. The commas are those of an object, which has a place; a document has none. -/
def paintBody (canvas : Canvas) (body : Body) (pos : Option SourcePos) (buffer : Buffer) : Buffer :=
  match body with
  | ⟨entries, innerDoc, trailing⟩ =>
      let painted := canvas.paintEntries entries (canvas.paintComments innerDoc buffer)
      let separated :=
        match pos with
        | some pos => canvas.paintCommas pos (entries.map Entry.pos) painted
        | none => painted
      canvas.paintComments trailing separated

/-- Paint the elements and comments of a list. -/
def paintItems (canvas : Canvas) (items : Items) (pos : SourcePos) (buffer : Buffer) : Buffer :=
  match items with
  | ⟨elements, innerDoc, trailing⟩ =>
      let painted := canvas.paintNodes elements (canvas.paintComments innerDoc buffer)
      canvas.paintComments trailing (canvas.paintCommas pos (elements.map Node.pos) painted)

/-- Paint entries in order. -/
def paintEntries (canvas : Canvas) (entries : List Entry) (buffer : Buffer) : Buffer :=
  match entries with
  | [] => buffer
  | entry :: rest => canvas.paintEntries rest (canvas.paintEntry entry buffer)

/-- Paint nodes in order. -/
def paintNodes (canvas : Canvas) (nodes : List Node) (buffer : Buffer) : Buffer :=
  match nodes with
  | [] => buffer
  | node :: rest => canvas.paintNodes rest (canvas.paintNode node buffer)

end

end Canvas

/-- Paint the line with a given number from a document. -/
def Buffer.paintTree (buffer : Buffer) (tree : Body) (line : Nat) (text : Text) : Buffer :=
  (Canvas.ofText line text).paintBody tree none buffer

end Highlighter
