import Highlighter.Text.Basic

/-!
# JSON

The values that a report is made of, and how they are written: two spaces a level, one member a
line, and the empty list and object on a line of their own.
-/

namespace Highlighter

/-- A JSON value as reports use them. -/
inductive JsonValue where
  | null
  | number (value : Nat)
  | string (value : Text)
  | array (items : List JsonValue)
  | object (members : List (String × JsonValue))

namespace JsonValue

/-- A character inside a JSON string. Quotes, backslashes and the controls below the space are
escaped. -/
def escapeChar (c : Char) : Text :=
  match c with
  | '"' => "\\\"".toList
  | '\\' => "\\\\".toList
  | '\x08' => "\\b".toList
  | '\x0c' => "\\f".toList
  | '\n' => "\\n".toList
  | '\r' => "\\r".toList
  | '\t' => "\\t".toList
  | c =>
      if c.toNat < 0x20 then
        let digits := Nat.toDigits 16 c.toNat
        "\\u".toList ++ List.replicate (4 - digits.length) '0' ++ digits
      else [c]

/-- A JSON string. -/
def quote (text : Text) : Text :=
  '"' :: text.flatMap escapeChar ++ ['"']

/-- A new line at some depth. -/
def newline (depth : Nat) : Text :=
  '\n' :: List.replicate (2 * depth) ' '

mutual

/-- A value as text, at some depth. -/
def render (depth : Nat) : JsonValue → Text
  | .null => "null".toList
  | .number value => Text.ofNat value
  | .string value => quote value
  | .array [] => "[]".toList
  | .array items => '[' :: renderItems (depth + 1) items ++ newline depth ++ [']']
  | .object [] => "\x7b\x7d".toList
  | .object members => '\x7b' :: renderMembers (depth + 1) members ++ newline depth ++ ['\x7d']

/-- Items as text, each on a line of its own. -/
def renderItems (depth : Nat) : List JsonValue → Text
  | [] => []
  | [item] => newline depth ++ item.render depth
  | item :: rest => newline depth ++ item.render depth ++ [','] ++ renderItems depth rest

/-- Members as text, each on a line of its own. -/
def renderMembers (depth : Nat) : List (String × JsonValue) → Text
  | [] => []
  | [(name, value)] =>
      newline depth ++ quote name.toList ++ ": ".toList ++ value.render depth
  | (name, value) :: rest =>
      newline depth ++ quote name.toList ++ ": ".toList ++ value.render depth ++ [','] ++
        renderMembers depth rest

end

end JsonValue

end Highlighter
