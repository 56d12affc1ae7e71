import Highlighter.File.Basic
import Highlighter.Settings.Paths
import Highlighter.Theme.Load

/-!
# Choosing a theme

A theme that the user keeps in a file goes before the built-in theme with the same identifier, even
if the file is broken.
-/

namespace Highlighter.Theme

/-- The theme with an identifier, from the user's themes or else from the built-in ones. -/
def load (themes : Files) (id : Text) : Except LoadError Theme :=
  match themes (SettingsPaths.themeFile id) with
  | .found stored =>
      match stored.text? with
      | some text => ofText text
      | none => .error .unreadable
  | .missing => builtin id
  | .blocked => builtin id

/-- The theme with an identifier, or the dark theme if it cannot be loaded. -/
def loadOrDefault (themes : Files) (id : Text) : Theme :=
  match load themes id with
  | .ok theme => theme
  | .error _ => defaultDark

end Highlighter.Theme
