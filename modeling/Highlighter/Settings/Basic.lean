import Highlighter.Text.Basic
import Highlighter.Timers

/-!
# Settings

What a user can set: whether errors are shown, how long to wait before a full parse, whether to
parse by itself, and the theme.
-/

namespace Highlighter

/-- The settings, with what holds when nothing is set. -/
structure Settings where
  showErrors : Bool := true
  parseDelay : Nat := Timers.defaultDelay
  autoParse : Bool := true
  theme : Text := "default-dark".toList
  deriving DecidableEq, Repr

/-- The settings with another parse delay, which is at least the minimum. -/
def Settings.setParseDelay (settings : Settings) (delay : Nat) : Settings :=
  { settings with parseDelay := Timers.clampDelay delay }

end Highlighter
