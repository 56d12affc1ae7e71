import Highlighter.File.Basic
import Highlighter.LoadError
import Highlighter.Settings.Basic
import Highlighter.Yaml.Reader

/-!
# Settings from a file

Settings are a YAML record in which every field may be missing.
-/

namespace Highlighter.Settings

/-- Settings from a record. The parse delay is at least the shortest one. -/
def ofYaml? (value : Yaml) : Option Settings := do
  let fields ← value.fields?
  let base : Settings := {}
  let showErrors ← Yaml.default? Yaml.bool? base.showErrors "error_highlighting" fields
  let delay ← Yaml.default? (Yaml.nat? UInt64.size) base.parseDelay "parse_delay_ms" fields
  let autoParse ← Yaml.default? Yaml.bool? base.autoParse "auto_parse_enabled" fields
  let theme ← Yaml.default? Yaml.text? base.theme "theme" fields
  pure (({ showErrors, autoParse, theme } : Settings).setParseDelay delay)

/-- Settings from the text of a file. -/
def ofText (text : Text) : Except LoadError Settings :=
  match Yaml.document? text >>= ofYaml? with
  | some settings => .ok settings
  | none => .error .malformed

/-- Settings from what a path leads to. -/
def load : Lookup → Except LoadError Settings
  | .found stored =>
      match stored.text? with
      | some text => ofText text
      | none => .error .unreadable
  | .missing => .error .unreadable
  | .blocked => .error .unreadable

/-- Settings from what a path leads to, or the default ones if they cannot be loaded. -/
def loadOrDefault (lookup : Lookup) : Settings :=
  match load lookup with
  | .ok settings => settings
  | .error _ => {}

end Highlighter.Settings
