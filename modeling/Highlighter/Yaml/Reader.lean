import Highlighter.Yaml.Scalar

/-!
# Reading YAML

A text as a YAML document: block mappings and sequences by indentation, flow mappings and sequences
in brackets, scalars and comments. Tags, anchors, aliases, block scalars, directives and explicit
keys are not part of the files that this library reads, and a text with one of them is refused.

The readers take a bound on how deep they may go. `document?` gives one that no text reaches,
because every level consumes a character.
-/

namespace Highlighter.Yaml

/-- A key may have so many characters, blanks before its colon included. -/
def keyLimit : Nat := 1024

/-- Whether what was read from `start` to `after` is a key: a colon follows on the same line. -/
def isKey (inFlow : Bool) (start after : Cursor) : Bool :=
  after.place.line = start.place.line && after.place.index ≤ start.place.index + keyLimit &&
    after.rest.head? = some ':' && (inFlow || startsBlank after.rest.tail)

mutual

/-- Read a scalar or a bracketed collection. -/
def atom? (fuel : Nat) (inFlow : Bool) (floor : Nat) (cursor : Cursor) : Option (Yaml × Cursor) :=
  match fuel with
  | 0 => none
  | fuel + 1 =>
      match cursor.rest.head? with
      | some '[' => do
          let (items, after) ← flowItems? fuel floor ((cursor.advance 1 true).skip true)
          pure (.sequence items, after)
      | some '\x7b' => do
          let (entries, after) ← flowEntries? fuel floor ((cursor.advance 1 true).skip true)
          pure (.mapping entries, after)
      | _ => scalar? inFlow floor cursor

/-- Read an entry inside brackets: a value, or a key with its value. The flag says which it was. -/
def flowEntry? (fuel : Nat) (floor : Nat) (cursor : Cursor) :
    Option (Yaml × Yaml × Bool × Cursor) :=
  match fuel with
  | 0 => none
  | fuel + 1 =>
      if isAnyMarker cursor.place cursor.rest then none
      else do
        let (key, after) ← atom? fuel true floor cursor
        let after := after.skip true
        if cursor.keyAllowed && isKey true cursor after then
          let value := (after.advance 1 false).skip true
          if value.rest.head?.any fun c => c = ',' || c = ']' || c = '\x7d' then
            pure (key, blank, true, value)
          else do
            if isAnyMarker value.place value.rest then none
            else
              let (read, rest) ← atom? fuel true floor value
              pure (key, read, true, rest.skip true)
        else pure (key, blank, false, after)

/-- Read the items of a flow sequence after its opening bracket. A key with a value is a mapping of
its own. -/
def flowItems? (fuel : Nat) (floor : Nat) (cursor : Cursor) : Option (List Yaml × Cursor) :=
  match fuel with
  | 0 => none
  | fuel + 1 =>
      if cursor.rest.head? = some ']' then some ([], cursor.advance 1 false)
      else do
        let (key, value, paired, after) ← flowEntry? fuel floor cursor
        let item := if paired then .mapping [(key, value)] else key
        match after.rest.head? with
        | some ']' => pure ([item], after.advance 1 false)
        | some ',' =>
            let (items, rest) ← flowItems? fuel floor ((after.advance 1 true).skip true)
            pure (item :: items, rest)
        | _ => none

/-- Read the entries of a flow mapping after its opening brace. -/
def flowEntries? (fuel : Nat) (floor : Nat) (cursor : Cursor) :
    Option (List (Yaml × Yaml) × Cursor) :=
  match fuel with
  | 0 => none
  | fuel + 1 =>
      if cursor.rest.head? = some '\x7d' then some ([], cursor.advance 1 false)
      else do
        let (key, value, _, after) ← flowEntry? fuel floor cursor
        match after.rest.head? with
        | some '\x7d' => pure ([(key, value)], after.advance 1 false)
        | some ',' =>
            let (entries, rest) ← flowEntries? fuel floor ((after.advance 1 true).skip true)
            pure ((key, value) :: entries, rest)
        | _ => none

end

mutual

/-- Read a block value at a cursor that is indented by at least `floor`. -/
def block? (fuel : Nat) (floor : Nat) (cursor : Cursor) : Option (Yaml × Cursor) :=
  match fuel with
  | 0 => none
  | fuel + 1 =>
      if cursor.atMark '-' then
        if cursor.keyAllowed then do
          let (items, after) ← blockItems? fuel cursor.place.column cursor
          pure (.sequence items, after)
        else none
      else do
        let (value, after) ← atom? fuel false floor cursor
        let colon := after.skip false
        if isKey false cursor colon then
          if cursor.keyAllowed then
            let (entries, rest) ← blockEntries? fuel cursor.place.column value colon
            pure (.mapping entries, rest)
          else none
        else pure (value, after)

/-- Read the items of a block sequence whose dashes stand in the given column, from one of them
on. -/
def blockItems? (fuel : Nat) (column : Nat) (cursor : Cursor) : Option (List Yaml × Cursor) :=
  match fuel with
  | 0 => none
  | fuel + 1 => do
      let start := (cursor.advance 1 true).skip false
      let (item, after) ←
        if start.atEnd || start.place.column ≤ column then pure (blank, start)
        else block? fuel (column + 1) start
      let next := after.skip false
      if !next.atEnd && next.place.column = column && next.atMark '-' && next.keyAllowed then
        let (items, rest) ← blockItems? fuel column next
        pure (item :: items, rest)
      else pure ([item], next)

/-- Read the entries of a block mapping whose keys stand in the given column, from the colon after a
key on. -/
def blockEntries? (fuel : Nat) (column : Nat) (key : Yaml) (colon : Cursor) :
    Option (List (Yaml × Yaml) × Cursor) :=
  match fuel with
  | 0 => none
  | fuel + 1 => do
      let start := (colon.advance 1 false).skip false
      let (value, after) ←
        if start.atEnd then pure (blank, start)
        else if column < start.place.column then block? fuel (column + 1) start
        else if start.place.column = column && start.atMark '-' then do
          let (items, after) ← blockItems? fuel column start
          pure (.sequence items, after)
        else pure (blank, start)
      let next := after.skip false
      if next.atEnd || next.place.column < column then pure ([(key, value)], next)
      else if next.place.column = column then do
        let (nextKey, afterKey) ← atom? fuel false (column + 1) next
        let nextColon := afterKey.skip false
        if isKey false next nextColon then
          let (entries, rest) ← blockEntries? fuel column nextKey nextColon
          pure ((key, value) :: entries, rest)
        else none
      else none

end

/-- The characters that a YAML text may hold. -/
def isAllowed (c : Char) : Bool :=
  let code := c.toNat
  c = '\t' || c = '\n' || c = '\r' || (0x20 ≤ code && code ≤ 0x7e) || code = 0x85 ||
    (0xa0 ≤ code && code ≤ 0xfffd) || 0x10000 ≤ code

/-- All ways to end a line but the two Unicode separators, as line feeds. -/
def normalize : Text → Text
  | [] => []
  | '\r' :: '\n' :: rest => '\n' :: normalize rest
  | c :: rest => (if c = '\r' || c = '\u0085' then '\n' else c) :: normalize rest

/-- Skip the markers that end documents. -/
def skipEnds (fuel : Nat) (cursor : Cursor) : Cursor :=
  match fuel with
  | 0 => cursor
  | fuel + 1 =>
      let next := cursor.skip false
      if isMarker '.' next.place next.rest then skipEnds fuel (next.advance 3 false) else next

/-- The one document of a text. A text with no document is a place where nothing is written. A text
that is no YAML, or that holds a second document, is refused. -/
def document? (text : Text) : Option Yaml :=
  if !text.all isAllowed then none
  else do
    let text := normalize text
    let fuel := 4 * text.length + 4
    let content := if text.head? = some '\ufeff' then text.tail else text
    let start := skipEnds fuel { rest := content }
    let marked := isMarker '-' start.place start.rest
    let start := if marked then (start.advance 3 false).skip false else start
    let (value, after) ← if start.atEnd then pure (blank, start) else block? fuel 0 start
    let rest := after.skip false
    if rest.rest.isEmpty then pure value
    else if isMarker '.' rest.place rest.rest && (skipEnds fuel rest).rest.isEmpty then pure value
    else none

end Highlighter.Yaml
