import Highlighter.Line.View
import Highlighter.Lexeme.Number
import Highlighter.Span.Buffer
import Highlighter.Text.DecimalDigit

/-!
# Painting a line by patterns

How a line is painted when no tree vouches for it. The rules claim their matches in a fixed order:
the comment, quoted literals, the key at the start of the line with its equals sign, booleans,
nulls, numbers and symbols. A rule never paints over an earlier one.
-/

namespace Highlighter

/-- A space or a tab. -/
def isIndent (c : Char) : Bool :=
  c == ' ' || c == '\t'

/-- The key at the start of a line and the offset of the equals sign after it. Nothing but spaces
and tabs may stand around the key. All characters up to the equals sign are ASCII, so their number
is an offset. -/
def lineKey? (line : Text) : Option (Range × Nat) :=
  let indent := (line.takeWhile isIndent).length
  let rest := line.drop indent
  let key := (rest.takeWhile Text.isIdentChar).length
  let gap := ((rest.drop key).takeWhile isIndent).length
  if rest.head?.any (fun c => c.isAlpha || c == '_') &&
      (rest.drop (key + gap)).head? = some '=' then
    some (⟨indent, indent + key⟩, indent + key + gap)
  else none

/-- A boolean word. -/
def booleanWord : Pattern := fun before rest =>
  Text.wholeWord "true".toList before rest <|> Text.wholeWord "false".toList before rest

/-- The null word. -/
def nullWord : Pattern :=
  Text.wholeWord "null".toList

/-- An unsigned number between word boundaries. The longest form that ends at a boundary is taken:
with exponent, without it, or the whole digits alone. -/
def unsignedNumber : Pattern := fun before rest =>
  let whole := Number.digitCount isDecimalDigit rest
  let fraction := Number.fractionLength isDecimalDigit (rest.drop whole)
  let exponent := Number.exponentLength isDecimalDigit (rest.drop (whole + fraction))
  if whole ≠ 0 && isWordBoundary before rest.head? then
    [whole + fraction + exponent, whole + fraction, whole].find? fun count =>
      isWordBoundary (rest.take count).getLast? (rest.drop count).head?
  else none

/-- A number with an optional minus sign. -/
def numberWord : Pattern := fun before rest =>
  match rest with
  | '-' :: digits => (unsignedNumber (some '-') digits).map (· + 1)
  | _ => unsignedNumber before rest

/-- A delimiter or a comma. -/
def symbolChar : Pattern := fun _ rest =>
  if rest.head?.any ("\x7b\x7d[],".toList.contains ·) then some 1 else none

/-- The spans that the patterns want on a line, earlier rules first. -/
def patternSpans (line : Text) : List Span :=
  let all (pattern : Pattern) (category : Category) : List Span :=
    (line.findAll pattern).map (Span.ofRange · category)
  let keySpans : List Span :=
    match lineKey? line with
    | some (key, equals) => [Span.ofRange key .key, ⟨equals, 1, .operator⟩]
    | none => []
  (commentSpan? line).toList ++
    (LineView.ofText line).literals.map (Span.ofRange · .string) ++
    keySpans ++ all booleanWord .boolean ++ all nullWord .null ++ all numberWord .number ++
    all symbolChar .symbol

namespace Buffer

/-- Paint the comment of a line. -/
def paintComment (buffer : Buffer) (line : Text) : Buffer :=
  buffer.claimAll (commentSpan? line).toList

/-- Paint a line by patterns. -/
def paintPatterns (buffer : Buffer) (line : Text) : Buffer :=
  buffer.claimAll (patternSpans line)

end Buffer

/-- The spans of a line painted by patterns alone. -/
def patternHighlight (line : Text) : List Span :=
  ((Buffer.ofText line).paintPatterns line).spans

end Highlighter
