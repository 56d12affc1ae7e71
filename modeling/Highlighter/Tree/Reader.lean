import Highlighter.Lexeme.Quoted
import Highlighter.Lexeme.Scan
import Highlighter.Tree.SyntaxError

/-!
# Reading a document

The reader takes one lexeme at a time. Its state says what may stand next and holds what has been
read: the body or list at hand, and a `Context` for each value that is still open around it. A
lexeme that may not stand next ends the reading with a syntax error, so an error depends on nothing
after its lexeme.

Entries are separated by line feeds or commas, and so are the elements of a list. Comments above an
entry lead it, a comment after a value trails it, and what is left over belongs to the container. A
lexeme without a token where an entry may start, or where one has just ended, ends the document
there; within braces it is an error.
-/

namespace Highlighter.Reader

/-- Where a value stands that is being read: after a key of the document, after a key of an object,
or in a list. Each holds what its container has so far. -/
inductive Context where
  | top (body : Body) (key : Text) (keyPos : Position)
  | member (outer : Context) (opened : Position) (body : Body) (key : Text) (keyPos : Position)
  | element (outer : Context) (opened : Position) (items : Items)

/-- The braces around a body: where its object stands and where it was opened. -/
structure Braces where
  outer : Context
  opened : Position

/-- What may stand next, with what has been read. A body without braces is the document. -/
inductive State where
  /-- An entry, a separator, a comment or the end of the body. -/
  | item (braces : Option Braces) (body : Body)
  /-- The equals sign after a key. -/
  | equals (braces : Option Braces) (body : Body) (key : Text) (keyPos : Position)
  /-- A value. -/
  | value (context : Context)
  /-- The end of an entry: a separator, the end of the body, or at most one comment before them. -/
  | entryEnd (braces : Option Braces) (body : Body) (entry : Entry)
  /-- An element, a separator, a comment or the end of the list. -/
  | element (outer : Context) (opened : Position) (items : Items)
  /-- The end of an element: a separator, the end of the list, or, unless there was one, a
  comment. -/
  | elementEnd (outer : Context) (opened : Position) (items : Items) (commented : Bool)
  /-- Anything: the document has ended. -/
  | stopped (body : Body)

/-- The state before the first lexeme. -/
def State.initial : State :=
  .item none .empty

/-- The error for a lexeme that may not stand next. -/
def unexpected {α : Type} (expected : Expectation) (lexeme : Lexeme) : Except SyntaxError α :=
  .error (.unexpected expected (Found.ofLexeme lexeme) lexeme.pos)

/-- The comment that a lexeme holds, without white space at its end. -/
def commentOf (lexeme : Lexeme) : Comment :=
  Comment.ofText lexeme.text.trimEnd lexeme.pos.toSource

/-- The body with a comment between its entries. -/
def noteBody (body : Body) (comment : Comment) : Body :=
  if comment.kind = .innerDoc then { body with innerDoc := body.innerDoc ++ [comment] }
  else { body with trailing := body.trailing ++ [comment] }

/-- The list with a comment between its elements. -/
def noteItems (items : Items) (comment : Comment) : Items :=
  if comment.kind = .innerDoc then { items with innerDoc := items.innerDoc ++ [comment] }
  else { items with trailing := items.trailing ++ [comment] }

/-- The list when an element is about to start: the comments before it are elements. -/
def settleItems (items : Items) : Items :=
  { items with
    elements := items.elements ++ items.trailing.map Node.comment
    trailing := [] }

/-- The list with one more element. -/
def pushItem (items : Items) (node : Node) : Items :=
  { items with elements := items.elements ++ [node] }

/-- The context of the value after a key. -/
def entryContext (braces : Option Braces) (body : Body) (key : Text) (keyPos : Position) :
    Context :=
  match braces with
  | none => .top body key keyPos
  | some braces => .member braces.outer braces.opened body key keyPos

/-- An entry has got its value. The comments above it become its own, and its key must be new. -/
def completeEntry (braces : Option Braces) (body : Body) (key : Text) (keyPos : Position)
    (value : Node) : Except SyntaxError State :=
  if body.hasKey key then .error (.duplicateKey key keyPos)
  else
    .ok (.entryEnd braces { body with trailing := [] }
      { key, value, leading := body.trailing, pos := keyPos.toSource })

/-- A value has been read to its end. -/
def Context.complete (value : Node) : Context → Except SyntaxError State
  | .top body key keyPos => completeEntry none body key keyPos value
  | .member outer opened body key keyPos =>
      completeEntry (some ⟨outer, opened⟩) body key keyPos value
  | .element outer opened items => .ok (.elementEnd outer opened (pushItem items value) false)

/-- An object has been read to its closing brace. -/
def closeObject (braces : Braces) (body : Body) (lexeme : Lexeme) : Except SyntaxError State :=
  braces.outer.complete (.object body braces.opened.toSource (some lexeme.pos.toSource))

/-- A list has been read to its closing bracket. -/
def closeList (outer : Context) (opened : Position) (items : Items) (lexeme : Lexeme) :
    Except SyntaxError State :=
  outer.complete (.list items opened.toSource (some lexeme.pos.toSource))

/-- A closing brace or a lexeme without a token, where a body may end. `instead` is what else may
stand there. -/
def endBody (braces : Option Braces) (body : Body) (instead : Expectation) (lexeme : Lexeme) :
    Except SyntaxError State :=
  match lexeme.token, braces with
  | some .closeBrace, some braces => closeObject braces body lexeme
  | none, some _ => unexpected .closeBrace lexeme
  | none, none => .ok (.stopped body)
  | _, _ => unexpected instead lexeme

/-- One lexeme where an entry may start. -/
def readItem (braces : Option Braces) (body : Body) (lexeme : Lexeme) : Except SyntaxError State :=
  match lexeme.token with
  | some .newline => .ok (.item braces body)
  | some .comma => .ok (.item braces body)
  | some .comment => .ok (.item braces (noteBody body (commentOf lexeme)))
  | some .ident => .ok (.equals braces body lexeme.text lexeme.pos)
  | some .string => .ok (.equals braces body (Quoted.unquote lexeme.text) lexeme.pos)
  | _ => endBody braces body .key lexeme

/-- One lexeme where a value must start. -/
def readValue (context : Context) (lexeme : Lexeme) : Except SyntaxError State :=
  let scalar (value : Scalar) := context.complete (.scalar value lexeme.pos.toSource)
  match lexeme.token with
  | some .string => scalar (.string (Quoted.unquote lexeme.text))
  | some .number => scalar (.number (Binary64.ofNumeral lexeme.text))
  | some (.bool value) => scalar (.bool value)
  | some .null => scalar .null
  | some .openBrace => .ok (.item (some ⟨context, lexeme.pos⟩) .empty)
  | some .openBracket => .ok (.element context lexeme.pos {})
  | _ => unexpected .value lexeme

/-- One lexeme after the value of an entry. -/
def readEntryEnd (braces : Option Braces) (body : Body) (entry : Entry) (lexeme : Lexeme) :
    Except SyntaxError State :=
  let separator : Expectation := if braces.isSome then .commaOrBrace else .commaOrNewline
  match lexeme.token with
  | some .newline => .ok (.item braces (body.push entry))
  | some .comma => .ok (.item braces (body.push entry))
  | some .comment =>
      if entry.trailing.isNone then
        .ok (.entryEnd braces body { entry with trailing := some (commentOf lexeme) })
      else unexpected separator lexeme
  | _ => endBody braces (body.push entry) separator lexeme

/-- One lexeme where an element may start. -/
def readElement (outer : Context) (opened : Position) (items : Items) (lexeme : Lexeme) :
    Except SyntaxError State :=
  match lexeme.token with
  | some .newline => .ok (.element outer opened items)
  | some .comma => .ok (.element outer opened items)
  | some .comment => .ok (.element outer opened (noteItems items (commentOf lexeme)))
  | some .closeBracket => closeList outer opened items lexeme
  | _ => readValue (.element outer opened (settleItems items)) lexeme

/-- One lexeme after an element. -/
def readElementEnd (outer : Context) (opened : Position) (items : Items) (commented : Bool)
    (lexeme : Lexeme) : Except SyntaxError State :=
  match lexeme.token with
  | some .newline => .ok (.element outer opened items)
  | some .comma => .ok (.element outer opened items)
  | some .closeBracket => closeList outer opened items lexeme
  | some .comment =>
      if commented then unexpected .commaOrBracket lexeme
      else .ok (.elementEnd outer opened (pushItem items (.comment (commentOf lexeme))) true)
  | _ => unexpected .commaOrBracket lexeme

/-- Take one lexeme. -/
def State.step (state : State) (lexeme : Lexeme) : Except SyntaxError State :=
  match state with
  | .item braces body => readItem braces body lexeme
  | .equals braces body key keyPos =>
      if lexeme.token = some .equals then .ok (.value (entryContext braces body key keyPos))
      else unexpected .equals lexeme
  | .value context => readValue context lexeme
  | .entryEnd braces body entry => readEntryEnd braces body entry lexeme
  | .element outer opened items => readElement outer opened items lexeme
  | .elementEnd outer opened items commented => readElementEnd outer opened items commented lexeme
  | .stopped body => .ok (.stopped body)

/-- Take lexemes in order, up to the first error. -/
def State.run (state : State) : List Lexeme → Except SyntaxError State
  | [] => .ok state
  | lexeme :: rest =>
      match state.step lexeme with
      | .ok next => next.run rest
      | .error error => .error error

/-- The document, when the input ends at the given place. -/
def State.finish (state : State) (pos : Position) : Except SyntaxError Body :=
  let missing (expected : Expectation) := .error (.unexpected expected .endOfInput pos)
  match state with
  | .item none body => .ok body
  | .item (some _) _ => missing .closeBrace
  | .equals _ _ _ _ => missing .equals
  | .value _ => missing .value
  | .entryEnd none body entry => .ok (body.push entry)
  | .entryEnd (some _) _ _ => missing .closeBrace
  | .element _ _ _ => missing .closeBracket
  | .elementEnd _ _ _ _ => missing .commaOrBracket
  | .stopped body => .ok body

end Highlighter.Reader

namespace Highlighter

/-- Read a text as a document. -/
def readDocument (text : Text) : Except SyntaxError Body :=
  match Reader.State.initial.run (Lexeme.tokenize text) with
  | .ok state => state.finish (Lexeme.endPosition text)
  | .error error => .error error

/-- The reader as a parser. -/
def documentParser : Parser := fun text =>
  match readDocument text with
  | .ok tree => .parsed tree
  | .error error => .failed error.toParseError

end Highlighter
