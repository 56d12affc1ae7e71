import Highlighter.Text.Basic

/-!
# Places in a YAML text

A cursor is the text still to be read with its place, and whether a mapping may start there. One may
start where a line starts and after the dash of a sequence, but not after a key on the same line.
-/

namespace Highlighter.Yaml

/-- A place in a text: the line, the column in it and the number of characters before it. -/
structure Place where
  line : Nat := 0
  column : Nat := 0
  index : Nat := 0
  deriving DecidableEq, Repr

/-- A line break. -/
def isBreak (c : Char) : Bool :=
  c == '\n' || c == '\u2028' || c == '\u2029'

/-- A space or a tab. -/
def isGap (c : Char) : Bool :=
  c == ' ' || c == '\t'

/-- Whether a text starts with a space, a tab or a break, or is at its end. -/
def startsBlank : Text → Bool
  | [] => true
  | c :: _ => isGap c || isBreak c

/-- The place after a character. -/
def Place.after (place : Place) (c : Char) : Place :=
  if isBreak c then ⟨place.line + 1, 0, place.index + 1⟩
  else { place with column := place.column + 1, index := place.index + 1 }

/-- Whether a document starts or ends here: three dashes or three dots at the start of a line, and a
blank. -/
def isMarker (mark : Char) (place : Place) : Text → Bool
  | a :: b :: c :: rest => place.column = 0 && a = mark && b = mark && c = mark && startsBlank rest
  | _ => false

/-- Whether either of the document markers is here. -/
def isAnyMarker (place : Place) (text : Text) : Bool :=
  isMarker '-' place text || isMarker '.' place text

/-- The text still to be read. -/
structure Cursor where
  rest : Text
  place : Place := {}
  keyAllowed : Bool := true
  deriving DecidableEq, Repr

namespace Cursor

/-- Whether a document has nothing more here. -/
def atEnd (cursor : Cursor) : Bool :=
  cursor.rest.isEmpty || isAnyMarker cursor.place cursor.rest

/-- Whether the given mark stands here by itself. -/
def atMark (cursor : Cursor) (mark : Char) : Bool :=
  cursor.rest.head? = some mark && startsBlank cursor.rest.tail

/-- The cursor some characters further on the same line. -/
def advance (cursor : Cursor) (count : Nat) (keyAllowed : Bool) : Cursor where
  rest := cursor.rest.drop count
  place :=
    { cursor.place with
      column := cursor.place.column + count
      index := cursor.place.index + count }
  keyAllowed := keyAllowed

/-- Skip blanks, comments and line breaks from a place. A tab is skipped only where no mapping may
start, or inside brackets. A new line allows a mapping to start, except inside brackets. -/
def skipFrom (inFlow : Bool) (inComment keyAllowed : Bool) (place : Place) : Text → Cursor
  | [] => ⟨[], place, keyAllowed⟩
  | c :: rest =>
      if isBreak c then skipFrom inFlow false (keyAllowed || !inFlow) (place.after c) rest
      else if inComment || c = ' ' || (c = '\t' && (inFlow || !keyAllowed)) then
        skipFrom inFlow inComment keyAllowed (place.after c) rest
      else if c = '#' then skipFrom inFlow true keyAllowed (place.after c) rest
      else ⟨c :: rest, place, keyAllowed⟩

/-- Skip to what comes next. -/
def skip (cursor : Cursor) (inFlow : Bool) : Cursor :=
  skipFrom inFlow false cursor.keyAllowed cursor.place cursor.rest

end Cursor

end Highlighter.Yaml
