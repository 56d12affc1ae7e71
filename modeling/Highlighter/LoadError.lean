import Highlighter.Text.Escaped

/-!
# Failures to load settings and themes
-/

namespace Highlighter

/-- Why settings or a theme could not be loaded. -/
inductive LoadError where
  /-- The file could not be read as text. -/
  | unreadable
  /-- The text is no YAML, or does not have the right fields. -/
  | malformed
  /-- A colour is not written as one. -/
  | color (text : Text)
  /-- No theme has this identifier. -/
  | unknownTheme (id : Text)
  deriving DecidableEq, Repr

/-- What is said about a failure, where its cause is in the request itself. -/
def LoadError.message? : LoadError → Option Text
  | .unreadable => none
  | .malformed => none
  | .color text => some ("invalid color ".toList ++ text.quoted)
  | .unknownTheme id => some ("unknown theme id: ".toList ++ id)

end Highlighter
