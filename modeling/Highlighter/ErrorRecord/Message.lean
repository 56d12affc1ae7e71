import Highlighter.Text.DecimalDigit
import Highlighter.Text.Matching

/-!
# Reading an error message

A parser may say where it failed only in the words of its message. The phrases understood here are
`line 3`, `col 7` or `column 7` for the place, and three ways to name the offending token: "got" and
the token in backquotes, "Got", the token's kind in capitals and the token, or "unexpected token" or
"unexpected character" and the token in single quotes. Words count in any case unless said
otherwise, and each must start at a word boundary.
-/

namespace Highlighter.Message

/-- A character without regard to case, as far as ASCII letters go. Besides the capitals, the Kelvin
sign is a form of `k` and the long s one of `s`. -/
def foldCase (c : Char) : Char :=
  if c = '\u212a' then 'k' else if c = '\u017f' then 's' else c.toLower

/-- What follows a word at the front, in any case. -/
def afterWord? (word text : Text) : Option Text :=
  if (text.take word.length).map foldCase = word then some (text.drop word.length) else none

/-- What follows white space at the front, of which there must be some. -/
def afterSpaces? (text : Text) : Option Text :=
  if text.head?.any isSpace then some (text.dropWhile isSpace) else none

/-- What stands between two marks, the first of which is at the front. It may not be empty. -/
def between? (mark : Char) : Text → Option Text
  | [] => none
  | c :: rest =>
      let inside := rest.takeWhile (· ≠ mark)
      if c = mark && !inside.isEmpty && inside.length < rest.length then some inside else none

/-- The token in a phrase such as "got" and a token in backquotes. -/
def backquotedToken? (before : Option Char) (text : Text) : Option Text :=
  if isWordBoundary before text.head? then do
    let rest ← afterSpaces? (← afterWord? "got".toList text)
    between? '\x60' rest
  else none

/-- The token in a phrase such as `Got NUMBER 5`. Here the case matters. -/
def typedToken? (before : Option Char) (text : Text) : Option Text :=
  if isWordBoundary before text.head? && "Got".toList.isPrefixOf text then do
    let named ← afterSpaces? (text.drop 3)
    if named.head?.any Char.isUpper then
      let rest ← afterSpaces? (named.dropWhile fun c => c.isUpper || c == '_')
      let token := rest.takeWhile (!isSpace ·)
      if token.isEmpty then none else some token
    else none
  else none

/-- The token in a phrase such as `unexpected token 'x'`. -/
def quotedToken? (before : Option Char) (text : Text) : Option Text :=
  if isWordBoundary before text.head? then do
    let rest ← afterSpaces? (← afterWord? "unexpected".toList text)
    let rest ← afterWord? "token".toList rest <|> afterWord? "character".toList rest
    between? '\'' (← afterSpaces? rest)
  else none

/-- The token that a message names, by the first kind of phrase that occurs in it. -/
def token? (message : Text) : Option Text :=
  Text.firstMatch backquotedToken? none message <|>
    Text.firstMatch typedToken? none message <|>
    Text.firstMatch quotedToken? none message

/-- The digits in a phrase that is one of some words and a number. -/
def digitsAfter? (words : List Text) (before : Option Char) (text : Text) : Option Text :=
  if isWordBoundary before text.head? then do
    let rest ← words.findSome? fun word => afterWord? word text >>= afterSpaces?
    let digits := rest.takeWhile isDecimalDigit
    if digits.isEmpty then none else some digits
  else none

/-- The number of the first such phrase. Zero, a number of 2^64 or more, and one not written in
ASCII digits count as missing. -/
def numberAfter? (words : List Text) (message : Text) : Option Nat := do
  let digits ← Text.firstMatch (digitsAfter? words) none message
  let value := digits.foldl (fun value c => 10 * value + (c.toNat - '0'.toNat)) 0
  if digits.all Char.isDigit && 0 < value && value < UInt64.size then some value else none

/-- The line that a message names. -/
def line? (message : Text) : Option Nat :=
  numberAfter? ["line".toList] message

/-- The column that a message names. -/
def column? (message : Text) : Option Nat :=
  numberAfter? ["column".toList, "col".toList] message

end Highlighter.Message
