import Highlighter.Document
import Highlighter.Theme

/-!
# Rendering for a terminal

A painted line as text with escape sequences. The line is cut wherever a span starts or ends; each
piece is written in the style of the token at its start, with the error style merged in when an
error touches it. A piece whose style changes nothing is written bare.
-/

namespace Highlighter.Ansi

/-- A piece of a line with its byte offset. -/
structure Piece where
  start : Nat
  text : Text
  deriving DecidableEq, Repr

/-- The offset just past a piece. -/
def Piece.stop (piece : Piece) : Nat :=
  piece.start + piece.text.byteLength

/-- A text cut before each character whose offset satisfies `isCut`, where the first character has
the given offset. -/
def cut (isCut : Nat → Bool) (offset : Nat) : Text → List Piece
  | [] => []
  | c :: cs =>
      match cut isCut (offset + c.utf8Size) cs with
      | [] => [⟨offset, [c]⟩]
      | next :: pieces =>
          if isCut next.start then ⟨offset, [c]⟩ :: next :: pieces
          else ⟨offset, c :: next.text⟩ :: pieces

/-- The pieces of a painted line. -/
def pieces (line : Text) (highlight : LineHighlight) : List Piece :=
  let isCut (offset : Nat) : Bool :=
    highlight.spans.any fun span => span.start == offset || span.stop == offset
  cut isCut 0 line

/-- An error over a token: the token keeps its colour and weight, and the wave line and the wash
come on top. -/
def merge (token error : Style) : Style where
  foreground := token.foreground <|> error.foreground
  background := error.background <|> token.background
  bold := token.bold
  italic := token.italic
  underline := error.underline

/-- A selector and the three channels of a colour. -/
def colorCode (selector : String) (color : Color) : Text :=
  selector.toList ++ ";2;".toList ++ Text.ofNat color.r.toNat ++ ";".toList ++
    Text.ofNat color.g.toNat ++ ";".toList ++ Text.ofNat color.b.toNat

/-- The parameters of a style. Translucent backgrounds are laid over the base colour. -/
def codes (base : Color) (style : Style) : List Text :=
  (if style.bold then ["1".toList] else []) ++
    (if style.italic then ["3".toList] else []) ++
    (match style.underline with
      | .none => []
      | .wave color => ["4:3".toList, colorCode "58" color]) ++
    (style.foreground.map (colorCode "38")).toList ++
    (style.background.map fun color => colorCode "48" (color.blendOver base)).toList

/-- Texts joined by a separator. -/
def join (separator : Text) : List Text → Text
  | [] => []
  | [text] => text
  | text :: rest => text ++ separator ++ join separator rest

/-- The escape sequence with the given parameters. -/
def escape (parameters : Text) : Text :=
  '\x1b' :: '[' :: parameters ++ ['m']

/-- A text in a style. -/
def styled (base : Color) (style : Style) (text : Text) : Text :=
  match codes base style with
  | [] => text
  | parameters => escape (join ";".toList parameters) ++ text ++ escape "0".toList

/-- The style of a piece. -/
def pieceStyle (styles : Styles) (highlight : LineHighlight) (piece : Piece) : Style :=
  let token := ((highlight.categoryAt piece.start).map styles).getD {}
  if highlight.errors.any fun error => piece.start < error.stop && error.start < piece.stop then
    merge token (styles .error)
  else token

/-- A painted line. -/
def line (styles : Styles) (base : Color) (text : Text) (highlight : LineHighlight) : Text :=
  (pieces text highlight).flatMap fun piece =>
    styled base (pieceStyle styles highlight piece) piece.text

/-- A document with the paint it has, its lines joined by line feeds. -/
def document (styles : Styles) (base : Color) (doc : Document) : Text :=
  let lines := doc.lines
  join ['\n'] (lines.zipIdx.map fun (text, index) =>
    line styles base text (doc.highlight (index + 1)))

end Highlighter.Ansi
