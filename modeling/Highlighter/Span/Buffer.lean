import Highlighter.Span.Basic

/-!
# The paint buffer of a line

A buffer has a cell for each byte of a line. A claim gives the cells of a range to a category and
holds for good: a claim that reaches outside the line or touches a cell already given away is
refused as a whole, so an earlier rule always wins over a later one. Error overlays are kept apart
and cover any cell. `Buffer.spans` turns the cells into their maximal runs and appends the overlays.
-/

namespace Highlighter

/-- The cells of a line, by byte, and the error overlays in the order they were laid. -/
structure Buffer where
  cells : List (Option Category)
  overlays : List Span := []
  deriving DecidableEq, Repr

namespace Buffer

/-- The buffer of a line with nothing claimed. -/
def ofText (line : Text) : Buffer :=
  { cells := List.replicate line.byteLength none }

/-- The number of bytes of the line. -/
def length (buffer : Buffer) : Nat :=
  buffer.cells.length

/-- Whether a range lies in the line and no cell of it is claimed. -/
def isFree (buffer : Buffer) (range : Range) : Bool :=
  range.stop ≤ buffer.length && ((buffer.cells.drop range.start).take range.length).all (·.isNone)

/-- Whether a range is free. A range of the line that ends before it starts has no answer. -/
def isFree? (buffer : Buffer) (range : Range) : Option Bool :=
  if range.stop ≤ buffer.length && range.stop < range.start then none
  else some (buffer.isFree range)

/-- The category that has claimed a byte. -/
def claimedAt (buffer : Buffer) (offset : Nat) : Option Category :=
  (buffer.cells[offset]?).join

/-- Give a range to a category. Refused for no bytes, for the error category, and unless the range
is free. -/
def claim? (buffer : Buffer) (start len : Nat) (category : Category) : Option Buffer :=
  if len = 0 || category = .error || !buffer.isFree ⟨start, start + len⟩ then none
  else
    some { buffer with
      cells := buffer.cells.take start ++ List.replicate len (some category) ++
        buffer.cells.drop (start + len) }

/-- Give a span to its category, or leave the buffer as it is when that is refused. -/
def claim (buffer : Buffer) (span : Span) : Buffer :=
  (buffer.claim? span.start span.len span.category).getD buffer

/-- Claim spans in order. -/
def claimAll (buffer : Buffer) (spans : List Span) : Buffer :=
  spans.foldl claim buffer

/-- Claim the first range of a list that is free. The result is the range with the buffer after
it. -/
def claimFirst? (buffer : Buffer) (category : Category) (ranges : List Range) :
    Option (Range × Buffer) :=
  ranges.findSome? fun range =>
    (buffer.claim? range.start range.length category).map fun claimed => (range, claimed)

/-- Lay an error over a range, cut off at the end of the line. One of no bytes, or past the end, is
ignored. -/
def overlay (buffer : Buffer) (start len : Nat) : Buffer :=
  if len = 0 || buffer.length ≤ start then buffer
  else
    { buffer with
      overlays := buffer.overlays ++ [⟨start, min len (buffer.length - start), .error⟩] }

/-- Whether an error lies over the line. -/
def hasErrors (buffer : Buffer) : Bool :=
  !buffer.overlays.isEmpty

/-- The maximal runs of cells with one category, where the first cell has the given offset. -/
def runs (offset : Nat) : List (Option Category) → List Span
  | [] => []
  | none :: cells => runs (offset + 1) cells
  | some category :: cells =>
      match runs (offset + 1) cells with
      | [] => [⟨offset, 1, category⟩]
      | next :: spans =>
          if next.start = offset + 1 && next.category = category then
            ⟨offset, next.len + 1, category⟩ :: spans
          else ⟨offset, 1, category⟩ :: next :: spans

/-- The spans of the line: the runs of claimed cells, then the overlays. -/
def spans (buffer : Buffer) : List Span :=
  runs 0 buffer.cells ++ buffer.overlays

end Buffer

end Highlighter
