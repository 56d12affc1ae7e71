import Highlighter.Text.Basic

/-!
# YAML values

The values of the YAML files that hold settings and themes, and how fields are read from them. A
scalar keeps its text and whether it was written plain: a quoted scalar is always a string, while a
plain one may also be a truth value, a number or nothing.
-/

namespace Highlighter

/-- A YAML value. -/
inductive Yaml where
  | scalar (text : Text) (plain : Bool)
  | sequence (items : List Yaml)
  | mapping (entries : List (Yaml × Yaml))

namespace Yaml

/-- The value of a place where nothing is written. -/
def blank : Yaml :=
  .scalar [] true

/-- The text of a scalar. -/
def text? : Yaml → Option Text
  | .scalar text _ => some text
  | _ => none

/-- The text of a plain scalar. -/
def plainText? : Yaml → Option Text
  | .scalar text true => some text
  | _ => none

/-- A truth value: a plain word in lower case, in upper case or with a capital. -/
def bool? (value : Yaml) : Option Bool := do
  let text ← value.plainText?
  if ["true", "True", "TRUE"].any (·.toList = text) then some true
  else if ["false", "False", "FALSE"].any (·.toList = text) then some false
  else none

/-- The value of a digit in some base up to sixteen. -/
def digit? (base : Nat) (c : Char) : Option Nat :=
  let value? :=
    if c.isDigit then some (c.toNat - '0'.toNat)
    else if 'a' ≤ c && c ≤ 'f' then some (c.toNat - 'a'.toNat + 10)
    else if 'A' ≤ c && c ≤ 'F' then some (c.toNat - 'A'.toNat + 10)
    else none
  value?.filter (· < base)

/-- The number written by digits of some base; there must be at least one. -/
def digits? (base : Nat) (digits : Text) : Option Nat := do
  let values ← digits.mapM (digit? base)
  if values.isEmpty then none else some (values.foldl (fun n digit => base * n + digit) 0)

/-- A natural number as YAML writes it: an optional plus sign, and digits that are decimal unless
`0x`, `0o` or `0b` stands before them. A decimal number has no leading zeros. -/
def numeral? (text : Text) : Option Nat :=
  let unsigned := if text.head? = some '+' then text.tail else text
  match unsigned with
  | '0' :: 'x' :: digits => digits? 16 digits
  | '0' :: 'o' :: digits => digits? 8 digits
  | '0' :: 'b' :: digits => digits? 2 digits
  | '0' :: _ :: _ => none
  | digits => digits? 10 digits

/-- A natural number below a limit, written plain. -/
def nat? (limit : Nat) (value : Yaml) : Option Nat := do
  (numeral? (← value.plainText?)).filter (· < limit)

/-- A record's fields by their names. A place where nothing is written is a record without
fields. -/
def fields? : Yaml → Option (List (Text × Yaml))
  | .mapping entries => entries.mapM fun (key, value) => return (← key.text?, value)
  | .scalar [] true => some []
  | _ => none

/-- The value of a field that may have several names. The outer option is none if the field is there
twice. -/
def field? (names : List String) (fields : List (Text × Yaml)) : Option (Option Yaml) :=
  match fields.filter fun field => names.any (·.toList = field.1) with
  | [] => some none
  | [(_, value)] => some (some value)
  | _ => none

/-- A field that must be there, read in some way. -/
def require? {α : Type} (read : Yaml → Option α) (names : List String)
    (fields : List (Text × Yaml)) : Option α := do
  read (← (← field? names fields))

/-- A field that may be missing, read in some way. -/
def default? {α : Type} (read : Yaml → Option α) (missing : α) (name : String)
    (fields : List (Text × Yaml)) : Option α := do
  match ← field? [name] fields with
  | none => some missing
  | some value => read value

end Yaml

end Highlighter
