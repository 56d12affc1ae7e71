import Highlighter.Engine.Basic
import Highlighter.Render.Json

/-!
# Reports

The result of a run for other programs to read: the file, how its parse came out, the errors and the
paint of every line.
-/

namespace Highlighter

/-- The result of a run. -/
structure Report where
  file : Option Text
  outcome : String
  revision : UInt64
  errors : List ErrorRecord
  lines : List LineHighlight

namespace Report

/-- The report on a document with the paint it has. -/
def ofDocument (file : Option Text) (doc : Document) (snapshot : Snapshot) : Report where
  file := file
  outcome := snapshot.outcome.name
  revision := snapshot.revision
  errors := snapshot.errors
  lines := (List.range' 1 doc.lineCount).map doc.highlight

/-- The name of a category in a report. -/
def categoryName : Category → String
  | .docComment => "doc_comment"
  | category => category.role

/-- The name of a line's state in a report. -/
def stateName : LineState → String
  | .normal => "normal"
  | .hasError => "has_error"

/-- A span in a report. -/
def spanValue (span : Span) : JsonValue :=
  .object
    [("start", .number span.start), ("len", .number span.len),
      ("category", .string (categoryName span.category).toList)]

/-- An error in a report. -/
def errorValue (record : ErrorRecord) : JsonValue :=
  .object
    [("line", .number record.line), ("column", .number record.column),
      ("length", .number record.length), ("message", .string record.message),
      ("token", (record.token.map JsonValue.string).getD .null)]

/-- A line in a report. -/
def lineValue (number : Nat) (highlight : LineHighlight) : JsonValue :=
  .object
    [("line", .number number), ("spans", .array (highlight.spans.map spanValue)),
      ("state", .string (stateName highlight.state).toList)]

/-- A report as a JSON value. -/
def toJson (report : Report) : JsonValue :=
  .object
    [("file", (report.file.map JsonValue.string).getD .null),
      ("outcome", .string report.outcome.toList),
      ("revision", .number report.revision.toNat),
      ("errors", .array (report.errors.map errorValue)),
      ("lines", .array (report.lines.zipIdx.map fun (highlight, index) =>
        lineValue (index + 1) highlight))]

end Report

end Highlighter
