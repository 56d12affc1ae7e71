import Highlighter.Yaml.Basic
import Highlighter.Yaml.Cursor

/-!
# YAML scalars

Plain, single-quoted and double-quoted scalars. Each may go over several lines, which are folded:
blanks around a line break are dropped, a single break becomes a space, and of several breaks all
but the first are kept.
-/

namespace Highlighter.Yaml

/-- What stands between two words of a scalar. -/
inductive Gap where
  /-- Blanks on one line, kept as they are. -/
  | blanks (text : Text)
  /-- Line breaks, to be folded. -/
  | breaks (text : Text)
  /-- The line breaks after one that was escaped. -/
  | joined (text : Text)
  deriving DecidableEq, Repr

namespace Gap

/-- No gap. -/
def none : Gap := .blanks []

/-- Whether a line break belongs to the gap. -/
def isBroken : Gap → Bool
  | .blanks _ => false
  | _ => true

/-- A gap that goes on with a blank or a line break. -/
def push (gap : Gap) (c : Char) : Gap :=
  match gap with
  | .blanks text => if isBreak c then .breaks [c] else .blanks (text ++ [c])
  | .breaks text => if isBreak c then .breaks (text ++ [c]) else gap
  | .joined text => if isBreak c then .joined (text ++ [c]) else gap

/-- The text that a gap stands for. -/
def fill : Gap → Text
  | .blanks text => text
  | .breaks ['\n'] => [' ']
  | .breaks ('\n' :: more) => more
  | .breaks text => text
  | .joined text => text

end Gap

/-- The marks that end a plain scalar inside brackets. -/
def isFlowMark (c : Char) : Bool :=
  c == ',' || c == '[' || c == ']' || c == '\x7b' || c == '\x7d'

/-- The characters that start something else than a plain scalar. -/
def isIndicator (c : Char) : Bool :=
  isFlowMark c || "-?:#&*!|>'\"%@\x60".toList.contains c

/-- Whether a plain scalar starts here. A dash may start one before anything but a blank; a question
mark or a colon may do so too, but not inside brackets. -/
def startsPlain (inFlow : Bool) : Text → Bool
  | [] => false
  | c :: rest =>
      if isGap c || isBreak c then false
      else if !isIndicator c then true
      else !startsBlank rest && (c = '-' || (!inFlow && (c = '?' || c = ':')))

/-- Read on in a plain scalar after a gap. It ends at a colon before a blank, at a comment, at a
line that is not indented enough, at the marks of an enclosing bracket and at a document marker. It
fails at a tab that indents a line too little and, inside brackets, at a colon that touches one of
their marks. -/
def plainFrom? (inFlow : Bool) (floor : Nat) (gap : Gap) (place : Place) :
    Text → Option (Text × Cursor)
  | [] => some ([], ⟨[], place, gap.isBroken⟩)
  | c :: rest =>
      let stop : Option (Text × Cursor) := some ([], ⟨c :: rest, place, gap.isBroken⟩)
      if isGap c || isBreak c then
        if c = '\t' && gap.isBroken && place.column < floor then none
        else plainFrom? inFlow floor (gap.push c) (place.after c) rest
      else if gap.isBroken &&
          (isAnyMarker place (c :: rest) || (!inFlow && place.column < floor)) then stop
      else if c = '#' && gap ≠ Gap.none then stop
      else if inFlow && c = ':' &&
          rest.head?.any (fun next => isFlowMark next || next = '?') then none
      else if c = ':' && startsBlank rest then stop
      else if inFlow && isFlowMark c then stop
      else do
        let (text, cursor) ← plainFrom? inFlow floor Gap.none (place.after c) rest
        pure (gap.fill ++ c :: text, cursor)

/-- What the reader of a double-quoted scalar expects. -/
inductive Quoting where
  /-- Text, after a gap. -/
  | open (gap : Gap)
  /-- What comes after a backslash. -/
  | escape
  /-- More digits of a character code. -/
  | code (left value : Nat)
  deriving DecidableEq, Repr

/-- The character that a letter after a backslash stands for. -/
def escapedLetter? (c : Char) : Option Char :=
  match c with
  | '0' => some '\x00'
  | 'a' => some '\x07'
  | 'b' => some '\x08'
  | 't' => some '\t'
  | '\t' => some '\t'
  | 'n' => some '\n'
  | 'v' => some '\x0b'
  | 'f' => some '\x0c'
  | 'r' => some '\r'
  | 'e' => some '\x1b'
  | ' ' => some ' '
  | '"' => some '"'
  | '/' => some '/'
  | '\\' => some '\\'
  | 'N' => some '\u0085'
  | '_' => some '\u00a0'
  | 'L' => some '\u2028'
  | 'P' => some '\u2029'
  | _ => none

/-- The number of digits of the character code that a letter after a backslash announces. -/
def codeLength? (c : Char) : Option Nat :=
  match c with
  | 'x' => some 2
  | 'u' => some 4
  | 'U' => some 8
  | _ => none

/-- The character with a code; some codes are no characters. -/
def charOfCode? (code : Nat) : Option Char :=
  if code < 0xd800 || (0xe000 ≤ code && code < 0x110000) then some (Char.ofNat code) else none

/-- Read a double-quoted scalar after its opening quote. It fails at the end of the text, at a
document marker and at an unknown escape. -/
def doubleFrom? (quoting : Quoting) (place : Place) : Text → Option (Text × Cursor)
  | [] => none
  | c :: rest =>
      let next := place.after c
      match quoting with
      | .open gap =>
          if gap.isBroken && isAnyMarker place (c :: rest) then none
          else if isGap c || isBreak c then doubleFrom? (.open (gap.push c)) next rest
          else if c = '"' then some (gap.fill, ⟨rest, next, false⟩)
          else do
            let here := if c = '\\' then [] else [c]
            let (text, cursor) ←
              doubleFrom? (if c = '\\' then .escape else .open Gap.none) next rest
            pure (gap.fill ++ here ++ text, cursor)
      | .escape =>
          if isBreak c then doubleFrom? (.open (.joined [])) next rest
          else
            match codeLength? c with
            | some left => doubleFrom? (.code left 0) next rest
            | none => do
                let char ← escapedLetter? c
                let (text, cursor) ← doubleFrom? (.open Gap.none) next rest
                pure (char :: text, cursor)
      | .code left value => do
          let value := 16 * value + (← digit? 16 c)
          if left ≤ 1 then
            let char ← charOfCode? value
            let (text, cursor) ← doubleFrom? (.open Gap.none) next rest
            pure (char :: text, cursor)
          else doubleFrom? (.code (left - 1) value) next rest

/-- Read a single-quoted scalar after its opening quote, where a quote that is meant is written
twice. `half` is set after the first quote of two. -/
def singleFrom? (half : Bool) (gap : Gap) (place : Place) : Text → Option (Text × Cursor)
  | [] => if half then some (gap.fill, ⟨[], place, false⟩) else none
  | c :: rest =>
      let next := place.after c
      if half then
        if c = '\'' then do
          let (text, cursor) ← singleFrom? false Gap.none next rest
          pure (gap.fill ++ c :: text, cursor)
        else some (gap.fill, ⟨c :: rest, place, false⟩)
      else if gap.isBroken && isAnyMarker place (c :: rest) then none
      else if isGap c || isBreak c then singleFrom? false (gap.push c) next rest
      else if c = '\'' then singleFrom? true gap next rest
      else do
        let (text, cursor) ← singleFrom? false Gap.none next rest
        pure (gap.fill ++ c :: text, cursor)

/-- Read the scalar at a cursor. -/
def scalar? (inFlow : Bool) (floor : Nat) (cursor : Cursor) : Option (Yaml × Cursor) :=
  match cursor.rest with
  | '"' :: rest => do
      let (text, after) ← doubleFrom? (.open Gap.none) (cursor.place.after '"') rest
      pure (.scalar text false, after)
  | '\'' :: rest => do
      let (text, after) ← singleFrom? false Gap.none (cursor.place.after '\'') rest
      pure (.scalar text false, after)
  | text =>
      if startsPlain inFlow text then do
        let (text, after) ← plainFrom? inFlow floor Gap.none cursor.place text
        pure (.scalar text true, after)
      else none

end Highlighter.Yaml
