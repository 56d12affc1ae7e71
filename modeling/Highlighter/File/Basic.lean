import Highlighter.Rounding
import Highlighter.Text.Basic

/-!
# Files and how a document is opened

Documents are text files of limited size. Before a file is read as text it must be a file, must not
be too large and must not look binary. The checks need its size and its first bytes only, so a file
is given by its size and a function that reads from its start.
-/

namespace Highlighter

/-- What is stored at a path. -/
inductive Stored where
  | directory
  /-- A file with its size and its first so many bytes. -/
  | file (size : Nat) (take : Nat → ByteArray)

/-- What a path leads to. -/
inductive Lookup where
  | missing
  /-- A part of the path that has to be a directory is a file. -/
  | blocked
  | found (stored : Stored)

/-- A place where files are looked up by their paths. -/
abbrev Files := Text → Lookup

/-- A place without files. -/
def Files.none : Files := fun _ => .missing

/-- A place of which only some paths are known. -/
def Files.ofList (known : List (Text × Lookup)) : Files := fun path =>
  (known.lookup path).getD .missing

/-- The file with the given bytes. -/
def Stored.ofBytes (bytes : ByteArray) : Stored :=
  .file bytes.size fun count => bytes.extract 0 count

/-- The text of a file; directories and files that are not valid UTF-8 have none. -/
def Stored.text? : Stored → Option Text
  | .directory => Option.none
  | .file size take => (String.fromUTF8? (take size)).map String.toList

/-- Why a document could not be opened. -/
inductive OpenError where
  | notFound
  | notDirectory
  | isDirectory
  | tooLarge (size : Nat)
  | binary
  | notText
  deriving DecidableEq, Repr

namespace OpenError

/-- The bytes of a megabyte. -/
def megabyte : Nat := 1024 * 1024

/-- A size in megabytes with one decimal, where a half goes to the even neighbour. -/
def megabytes (size : Nat) : Text :=
  let tenths := roundHalfEven (10 * size) megabyte
  Text.ofNat (tenths / 10) ++ '.' :: Text.ofNat (tenths % 10)

/-- What is said about a failure. -/
def message : OpenError → Text
  | .notFound => "file not found".toList
  | .notDirectory => "Not a directory (os error 20)".toList
  | .isDirectory => "is a directory".toList
  | .tooLarge size => "file too large (".toList ++ megabytes size ++ " MB)".toList
  | .binary => "binary file".toList
  | .notText => "not valid UTF-8".toList

end OpenError

namespace Stored

/-- The size that a document may have. -/
def maxSize : Nat := 50 * OpenError.megabyte

/-- How many bytes are looked at to tell whether a file is binary. -/
def sampleSize : Nat := 8192

/-- The text of a document. The size is checked first, then the sample for a zero byte, then the
encoding. -/
def document : Stored → Except OpenError Text
  | .directory => .error .isDirectory
  | .file size take =>
      if maxSize < size then .error (.tooLarge size)
      else if (take sampleSize).toList.contains 0 then .error .binary
      else
        match (file size take).text? with
        | some text => .ok text
        | Option.none => .error .notText

end Stored

/-- The text of the document that a path leads to. -/
def Lookup.document : Lookup → Except OpenError Text
  | .missing => .error .notFound
  | .blocked => .error .notDirectory
  | .found stored => stored.document

end Highlighter
