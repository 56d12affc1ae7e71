import Highlighter.ErrorRecord.Message
import Highlighter.Outcome

/-!
# Error records

An error record is a failure with a place to show it at. `ErrorRecord.locate` makes one from what a
parser reports: its fields come first, then what its message says, then the start of the document.
`ErrorRecord.resolve` finds the bytes to underline on the record's line.
-/

namespace Highlighter

/-- A failure to show: a place, the number of characters from it on, the message and the offending
token. -/
structure ErrorRecord where
  line : Nat
  column : Nat
  length : Nat
  message : Text
  token : Option Text
  deriving DecidableEq, Repr

namespace ErrorRecord

/-- The record of a failure. -/
def locate (error : ParseError) : ErrorRecord :=
  let token := error.token.filter (!·.isEmpty) <|> Message.token? error.message
  { line := (error.line.filter (0 < ·) <|> Message.line? error.message).getD 1
    column := (error.column.filter (0 < ·) <|> Message.column? error.message).getD 1
    length := (token.map List.length).elim 1 (max · 1)
    message := error.message
    token }

/-- The last character of a line that is no white space, as an offset and a length. On a blank line
it is the first character. -/
def lastVisible (line : Text) : Nat × Nat :=
  let visible := line.trimEnd
  match visible.getLast? with
  | some c => (visible.byteLength - c.utf8Size, c.utf8Size)
  | none => (0, (line.head?.map Char.utf8Size).getD 1)

/-- The offset of a record's token on its line: the first occurrence from the column on, or else on
the whole line. -/
def tokenOffset? (record : ErrorRecord) (line : Text) : Option Nat := do
  let token ← record.token
  let skipped := record.column - 1
  (Text.find? (line.drop skipped) token).map (line.charOffset skipped + ·) <|> line.find? token

/-- The bytes of its line that a record underlines, as an offset and a length. A column at or past
the end of the visible text means the last visible character. Otherwise the token is underlined
where it is found, or the record's number of characters from its column on; the length stays on the
line but is never zero. -/
def resolve (record : ErrorRecord) (line : Text) : Nat × Nat :=
  let skipped := record.column - 1
  let start := line.charOffset skipped
  if line.trimEnd.byteLength ≤ start then lastVisible line
  else
    let (start, len) :=
      match record.tokenOffset? line with
      | some offset => (offset, (record.token.getD []).byteLength)
      | none => (start, Text.byteLength ((line.drop skipped).take (max record.length 1)))
    (start, max (min len (line.byteLength - start)) 1)

end ErrorRecord

end Highlighter
