import Highlighter.Color
import Highlighter.Span.Basic

/-!
# Themes

A theme gives each category a style. Keys, operators, booleans and nulls are bold, comments are
italic, and an error is a wave line in its colour over a faint wash of the same colour.
-/

namespace Highlighter

/-- The line under a text. -/
inductive Underline where
  | none
  | wave (color : Color)
  deriving DecidableEq, Repr

/-- How a text is painted. -/
structure Style where
  foreground : Option Color := none
  background : Option Color := none
  bold : Bool := false
  italic : Bool := false
  underline : Underline := .none
  deriving DecidableEq, Repr

/-- The style of each category. -/
abbrev Styles := Category → Style

/-- Styles that change nothing. -/
def Styles.plain : Styles := fun _ => {}

/-- A colour for each category. -/
structure Palette where
  key : Color
  operator : Color
  string : Color
  number : Color
  boolean : Color
  null : Color
  symbol : Color
  comment : Color
  docComment : Color
  error : Color
  deriving DecidableEq, Repr

/-- The colour of a category. -/
def Palette.color (palette : Palette) : Category → Color
  | .key => palette.key
  | .operator => palette.operator
  | .string => palette.string
  | .number => palette.number
  | .boolean => palette.boolean
  | .null => palette.null
  | .symbol => palette.symbol
  | .comment => palette.comment
  | .docComment => palette.docComment
  | .error => palette.error

/-- A named palette with the colours of the page. -/
structure Theme where
  name : Text
  background : Color
  foreground : Color
  palette : Palette
  deriving DecidableEq, Repr

namespace Theme

/-- The alpha channel of the wash under an error. -/
def errorAlpha : UInt8 := 20

/-- The styles of a theme. -/
def styles (theme : Theme) : Styles := fun category =>
  let color := theme.palette.color category
  match category with
  | .key => { foreground := some color, bold := true }
  | .operator => { foreground := some color, bold := true }
  | .boolean => { foreground := some color, bold := true }
  | .null => { foreground := some color, bold := true }
  | .comment => { foreground := some color, italic := true }
  | .docComment => { foreground := some color, italic := true }
  | .string => { foreground := some color }
  | .number => { foreground := some color }
  | .symbol => { foreground := some color }
  | .error => { background := some (color.withAlpha errorAlpha), underline := .wave color }

/-- The dark theme, which is used when nothing else is asked for. -/
def defaultDark : Theme where
  name := "Default Dark".toList
  background := .rgb 0x1e 0x1e 0x1e
  foreground := .rgb 0xd4 0xd4 0xd4
  palette :=
    { key := .rgb 0x56 0x9c 0xd6
      operator := .rgb 0xd4 0xd4 0xd4
      string := .rgb 0xce 0x91 0x78
      number := .rgb 0xb5 0xce 0xa8
      boolean := .rgb 0x56 0x9c 0xd6
      null := .rgb 0x56 0x9c 0xd6
      symbol := .rgb 0xd4 0xd4 0xd4
      comment := .rgb 0x6a 0x99 0x55
      docComment := .rgb 0x5e 0x9d 0xd6
      error := .rgb 0xf1 0x4c 0x4c }

/-- The light theme. -/
def defaultLight : Theme where
  name := "Default Light".toList
  background := .rgb 0xff 0xff 0xff
  foreground := .rgb 0x00 0x00 0x00
  palette :=
    { key := .rgb 0x00 0x33 0xb3
      operator := .rgb 0x00 0x00 0x00
      string := .rgb 0x06 0x7d 0x17
      number := .rgb 0x17 0x50 0xeb
      boolean := .rgb 0x00 0x33 0xb3
      null := .rgb 0x00 0x33 0xb3
      symbol := .rgb 0x55 0x55 0x55
      comment := .rgb 0x8c 0x8c 0x8c
      docComment := .rgb 0x3d 0x5a 0x80
      error := .rgb 0xff 0x00 0x00 }

/-- The themes that need no file, by their identifiers. -/
def builtin? (id : Text) : Option Theme :=
  if id = "default-dark".toList then some defaultDark
  else if id = "default-light".toList then some defaultLight
  else none

end Theme

end Highlighter
