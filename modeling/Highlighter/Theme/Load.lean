import Highlighter.LoadError
import Highlighter.Theme
import Highlighter.Yaml.Reader

/-!
# Themes from a file

A theme file is a YAML record with a version, a name, the colours of the page and the colour of each
category. All fields are read before the first colour is looked at, so a missing field is reported
before a colour that is no colour.
-/

namespace Highlighter.Theme

/-- A theme as it is written: the colours are texts. -/
structure Draft where
  name : Text
  background : Text
  foreground : Text
  /-- The text of the colour of a category. -/
  color : Category → Text

/-- The names of the field that holds the colour of a category. -/
def fieldNames : Category → List String
  | .key => ["key", "keyword"]
  | category => [category.role]

/-- A text that may also be left out. -/
def optionalText? (value : Yaml) : Option Unit :=
  value.text?.map fun _ => ()

/-- A theme from a record, as far as its fields go. -/
def Draft.ofYaml? (value : Yaml) : Option Draft := do
  let fields ← value.fields?
  let _ ← Yaml.require? (Yaml.nat? UInt32.size) ["version"] fields
  let name ← Yaml.require? Yaml.text? ["name"] fields
  let _ ← Yaml.default? optionalText? () "author" fields
  let _ ← Yaml.default? optionalText? () "description" fields
  let page ← Yaml.require? Yaml.fields? ["editor"] fields
  let background ← Yaml.require? Yaml.text? ["background"] page
  let foreground ← Yaml.require? Yaml.text? ["foreground"] page
  let colors ← Yaml.require? Yaml.fields? ["syntax"] fields
  let texts ← Category.all.mapM fun category => do
    pure (category, ← Yaml.require? Yaml.text? (fieldNames category) colors)
  pure { name, background, foreground, color := fun category => (texts.lookup category).getD [] }

/-- The colour written by a text. -/
def readColor (text : Text) : Except LoadError Color :=
  match Color.ofHex? text with
  | some color => .ok color
  | none => .error (.color text)

/-- Read the colours of a theme, those of the page first and then the categories in order. -/
def ofDraft (draft : Draft) : Except LoadError Theme := do
  let background ← readColor draft.background
  let foreground ← readColor draft.foreground
  let key ← readColor (draft.color .key)
  let operator ← readColor (draft.color .operator)
  let string ← readColor (draft.color .string)
  let number ← readColor (draft.color .number)
  let boolean ← readColor (draft.color .boolean)
  let null ← readColor (draft.color .null)
  let symbol ← readColor (draft.color .symbol)
  let comment ← readColor (draft.color .comment)
  let docComment ← readColor (draft.color .docComment)
  let error ← readColor (draft.color .error)
  pure
    { name := draft.name
      background
      foreground
      palette :=
        { key, operator, string, number, boolean, null, symbol, comment, docComment, error } }

/-- A theme from the text of a file. -/
def ofText (text : Text) : Except LoadError Theme :=
  match Yaml.document? text >>= Draft.ofYaml? with
  | some draft => ofDraft draft
  | none => .error .malformed

/-- The built-in theme with an identifier. -/
def builtin (id : Text) : Except LoadError Theme :=
  match builtin? id with
  | some theme => .ok theme
  | none => .error (.unknownTheme id)

end Highlighter.Theme
