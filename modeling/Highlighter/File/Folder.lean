import Highlighter.File.Basic
import Highlighter.Path

/-!
# Folders in memory

A folder is a list of what is stored in it, each with the names on the way there. Every file brings
the directories above it along. Nothing is known of what lies outside a folder, except that a
directory is there.
-/

namespace Highlighter

/-- What is stored in a folder, by the names on the way there. -/
structure Folder where
  entries : List (List Text × Stored)

namespace Folder

/-- A folder from paths. -/
def ofPaths (files : List (Text × Stored)) : Folder where
  entries := files.map fun (path, stored) =>
    ((Path.parts path).filter fun part => !part.isEmpty && part ≠ ['.'], stored)

/-- What is stored at the end of a way, whose last name stands first. -/
def stored? (folder : Folder) (way : List Text) : Option Stored :=
  let names := way.reverse
  match folder.entries.find? (fun entry => entry.1 = names) with
  | some (_, stored) => some stored
  | none =>
      if names.isEmpty || folder.entries.any (fun entry => names.isPrefixOf entry.1) then
        some .directory
      else none

/-- Follow the parts of a path from a place in the folder. `outside` counts how often the path has
left the folder. -/
def follow (folder : Folder) (way : List Text) (outside : Nat) : List Text → Lookup
  | [] =>
      if outside = 0 then
        match folder.stored? way with
        | some stored => .found stored
        | none => .missing
      else .found .directory
  | part :: rest =>
      if outside = 0 then
        match folder.stored? way with
        | none => .missing
        | some (.file _ _) => .blocked
        | some .directory =>
            if part.isEmpty || part = ['.'] then follow folder way 0 rest
            else if part = ['.', '.'] then
              if way.isEmpty then follow folder way 1 rest else follow folder way.tail 0 rest
            else follow folder (part :: way) 0 rest
      else if part.isEmpty || part = ['.'] then follow folder way outside rest
      else if part = ['.', '.'] then follow folder way (outside + 1) rest
      else .missing

/-- A folder as a place for files. Absolute and empty paths lead nowhere. -/
def files (folder : Folder) : Files := fun path =>
  if path.isEmpty || Path.isAbsolute path then .missing
  else folder.follow [] 0 (Path.parts path)

end Folder

end Highlighter
