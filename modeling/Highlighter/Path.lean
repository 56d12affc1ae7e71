import Highlighter.Text.Basic

/-!
# Paths

Paths are texts whose parts are divided by slashes.
-/

namespace Highlighter.Path

/-- Whether a path starts at the root. -/
def isAbsolute (path : Text) : Bool :=
  path.head? = some '/'

/-- One path below another. An absolute path stands for itself, and no slash is added after an empty
path or one that ends in a slash. -/
def join (left right : Text) : Text :=
  if isAbsolute right || left.isEmpty then right
  else if left.getLast? = some '/' then left ++ right
  else left ++ '/' :: right

/-- The parts of a path between its slashes, empty ones included. -/
def parts : Text → List Text
  | [] => [[]]
  | c :: rest =>
      if c = '/' then [] :: parts rest
      else
        match parts rest with
        | [] => [[c]]
        | part :: more => (c :: part) :: more

end Highlighter.Path
